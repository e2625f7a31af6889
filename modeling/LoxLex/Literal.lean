import LoxLex.Binary64.Text
import LoxLex.Text.DebugNotation

set_option relaxedAutoImplicit false
set_option autoImplicit false

/-!
# Literals

The value of a string or number lexeme.

## Main definitions

* `LoxLex.Literal` — the two kinds of value.
* `LoxLex.Literal.equal` — equality by value.
* `LoxLex.Literal.text`, `LoxLex.Literal.debugText` — the two texts of a literal.
-/

namespace LoxLex

/-- The value of a literal. -/
inductive Literal where
  /-- The text between the quotes, taken as it stands. -/
  | string (body : String)
  /-- A number. -/
  | number (value : Binary64)
deriving DecidableEq

namespace Literal

/-- Equality by value: strings by their characters, numbers numerically. -/
def equal : Literal → Literal → Bool
  | string a, string b => a == b
  | number a, number b => a.equal b
  | _, _ => false

/-- A string as it is, a number by its text. A whole number gets a point with a zero behind it. -/
def text : Literal → String
  | string body => body
  | number value =>
    String.ofList (value.text ++ if value.isFinite ∧ value.isWhole then ['.', '0'] else [])

/-- The name of the kind of literal in token dumps. -/
def name : Literal → String
  | string _ => "STRING"
  | number _ => "NUMBER"

/-- The debug text of a literal. -/
def debugText : Literal → String
  | string body => DebugNotation.wrap "String" (DebugNotation.quoted body)
  | number value => DebugNotation.wrap "Number" (String.ofList value.debugText)

end Literal

end LoxLex
