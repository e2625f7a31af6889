set_option relaxedAutoImplicit false
set_option autoImplicit false

/-!
# Character classes

The classes that decide which lexeme a character begins and how far it goes. All four are
ASCII classes: no other digit, letter or blank has a meaning outside strings and comments.

## Main definitions

* `LoxLex.isBlank` — space, tab, carriage return, newline.
* `LoxLex.isDigit` — `0` to `9`.
* `LoxLex.isWordStart`, `LoxLex.isWordPart` — what begins and what continues a word.
-/

namespace LoxLex

/-- Space, tab, carriage return or newline. -/
def isBlank (c : Char) : Bool :=
  c == ' ' || c == '\t' || c == '\r' || c == '\n'

/-- One of the ten ASCII digits. -/
def isDigit (c : Char) : Bool :=
  '0' ≤ c && c ≤ '9'

/-- An ASCII letter or an underscore. -/
def isWordStart (c : Char) : Bool :=
  ('a' ≤ c && c ≤ 'z') || ('A' ≤ c && c ≤ 'Z') || c == '_'

/-- An ASCII letter, an underscore or a digit. -/
def isWordPart (c : Char) : Bool :=
  isWordStart c || isDigit c

end LoxLex
