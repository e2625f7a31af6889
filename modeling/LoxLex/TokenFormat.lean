import LoxLex.Token

set_option relaxedAutoImplicit false
set_option autoImplicit false

/-!
# Token formats

The two forms in which a run prints tokens.

## Main definitions

* `LoxLex.TokenFormat`, `LoxLex.TokenFormat.text`.
-/

namespace LoxLex

/-- A form in which tokens are printed. -/
inductive TokenFormat where
  /-- Name, lexeme and literal. -/
  | canonical
  /-- The debug text, which has the span as well. -/
  | debug
deriving DecidableEq, Repr

namespace TokenFormat

/-- A token in a format. -/
def text : TokenFormat → Token → String
  | canonical, t => t.canonical
  | debug, t => t.debugText

/-- The format of a name, which has to be spelled exactly so. -/
def ofName? : String → Option TokenFormat
  | "canonical" => some canonical
  | "debug" => some debug
  | _ => none

end TokenFormat

end LoxLex
