import LoxLex.Scanner

set_option relaxedAutoImplicit false
set_option autoImplicit false

/-!
# Scan results

The items of a text sorted into its tokens and its errors.

## Main definitions

* `LoxLex.Scan` — tokens and errors, each in the order of the text.
* `LoxLex.scan` — the result for a text.
* `LoxLex.Scan.toExcept` — the tokens, or all errors if there are any.
-/

namespace LoxLex

/-- The tokens and the errors of a text. -/
structure Scan where
  /-- The tokens; the last one stands for the end of the text. -/
  tokens : List Token
  /-- The errors. -/
  errors : List LexError
deriving DecidableEq

namespace Scan

/-- Items sorted into tokens and errors. -/
def ofItems (items : List Item) : Scan :=
  ⟨items.filterMap Item.token?, items.filterMap Item.error?⟩

/-- Whether the text has errors. -/
def hasErrors (r : Scan) : Bool := !r.errors.isEmpty

/-- Whether more text could mend what is wrong. -/
def wantsMore (r : Scan) : Bool := LexError.listWantsMore r.errors

/-- The tokens of a text without errors, or the errors. -/
def toExcept (r : Scan) : Except (List LexError) (List Token) :=
  if r.errors.isEmpty then .ok r.tokens else .error r.errors

/-- Equality with literals compared by value. -/
def equal (a b : Scan) : Bool :=
  a.tokens.length == b.tokens.length &&
    (a.tokens.zip b.tokens).all (fun p => p.1.equal p.2) && a.errors == b.errors

end Scan

/-- The tokens and the errors of a text. -/
def scan (source : String) : Scan := .ofItems (items source)

end LoxLex
