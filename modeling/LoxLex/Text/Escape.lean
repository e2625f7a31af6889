import LoxLex.Text.DefaultIgnorable
import LoxLex.Text.GraphemeExtend
import LoxLex.Text.Unprintable

set_option relaxedAutoImplicit false
set_option autoImplicit false

/-!
# Escapes

How a text is written so that every character of it can be seen: a few characters have a short
escape, what leaves no mark of its own is written by its code point, and the rest stays.

## Main definitions

* `LoxLex.Quoting` — which of the two quotes need an escape.
* `LoxLex.escapeChar`, `LoxLex.escape` — the escaped form of a character and of a text.
-/

namespace LoxLex

/-- Which quotes are escaped, which depends on the quotes around the text. -/
structure Quoting where
  /-- Whether the apostrophe is escaped. -/
  single : Bool
  /-- Whether the double quote is escaped. -/
  double : Bool
deriving DecidableEq

namespace Quoting

/-- Inside double quotes, only these are escaped. -/
def insideDouble : Quoting := ⟨false, true⟩

/-- Inside apostrophes, only these are escaped. -/
def insideSingle : Quoting := ⟨true, false⟩

/-- Where the quotes around are unknown, both kinds are escaped. -/
def anywhere : Quoting := ⟨true, true⟩

end Quoting

/-- A character by its code point: backslash, `u` and lower-case hexadecimal digits in braces. -/
def escapeCodePoint (c : Char) : List Char :=
  '\\' :: 'u' :: '\x7b' :: (Nat.toDigits 16 c.toNat ++ ['\x7d'])

/-- Whether a character is written by its code point, as it would not be seen by itself. -/
def isHidden (c : Char) : Bool :=
  CharSet.graphemeExtend.contains c || CharSet.unprintable.contains c ||
    CharSet.defaultIgnorable.contains c

/-- The escaped form of a character. -/
def escapeChar (q : Quoting) (c : Char) : List Char :=
  if c = '\x00' then ['\\', '0']
  else if c = '\t' then ['\\', 't']
  else if c = '\r' then ['\\', 'r']
  else if c = '\n' then ['\\', 'n']
  else if c = '\\' then ['\\', '\\']
  else if c = '\x22' then if q.double then ['\\', c] else [c]
  else if c = '\x27' then if q.single then ['\\', c] else [c]
  else if isHidden c then escapeCodePoint c
  else [c]

/-- The escaped form of a text, character by character. -/
def escape (q : Quoting) (text : List Char) : List Char :=
  text.flatMap (escapeChar q)

end LoxLex
