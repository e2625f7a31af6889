import LoxLex.Binary64.Shortest

set_option relaxedAutoImplicit false
set_option autoImplicit false

/-!
# The texts of floating-point numbers

Both texts of a number show its shortest digits. The plain one is positional whatever the size of
the number, and has a point only if there are digits behind it; the debug one has at least one digit
on either side of the point, and turns to an exponent for the very large and the very small.

## Main definitions

* `LoxLex.Decimal.plain` — digits, with a point if they do not end before it.
* `LoxLex.Decimal.positional` — digits with a point.
* `LoxLex.Decimal.scientific` — digits with an exponent.
* `LoxLex.Binary64.text`, `LoxLex.Binary64.debugText` — the two texts of a number.
-/

namespace LoxLex

namespace Decimal

/-- The digits before the point. -/
def wholeDigits (d : Decimal) : List Char := Nat.toDigits 10 (d.num / d.den)

/-- The digits after the point: as many as the exponent asks for, and a zero if it asks for
none. -/
def fractionDigits (d : Decimal) : List Char :=
  match d.exponent with
  | .ofNat _ => ['0']
  | .negSucc k => List.leftpad (k + 1) '0' (Nat.toDigits 10 (d.num % d.den))

/-- Digits, and a point with digits behind it if the exponent asks for any. -/
def plain (d : Decimal) : List Char :=
  match d.exponent with
  | .ofNat _ => d.wholeDigits
  | .negSucc _ => d.wholeDigits ++ '.' :: d.fractionDigits

/-- Digits with a point, at least one of them on either side. -/
def positional (d : Decimal) : List Char :=
  d.wholeDigits ++ '.' :: d.fractionDigits

/-- One digit, the others behind a point if there are any, and the exponent of the first digit. -/
def scientific (d : Decimal) : List Char :=
  match Nat.toDigits 10 d.digits with
  | [] => []
  | first :: others =>
    let fraction := if others.isEmpty then [] else '.' :: others
    first :: fraction ++ 'e' :: (toString (d.exponent + others.length)).toList

end Decimal

namespace Binary64

/-- A text behind the sign of a number. -/
def signed (x : Binary64) (text : List Char) : List Char :=
  if x.negative then '-' :: text else text

/-- The text of a number, given how the decimal of its magnitude is written. What is no number
shows no sign. -/
def textWith (write : Decimal → List Char) (x : Binary64) : List Char :=
  if x.isNaN then ['N', 'a', 'N']
  else if x.isInfinite then x.signed ['i', 'n', 'f']
  else x.signed (write (Decimal.shortest x.magnitude))

/-- The text of a number, never with an exponent. -/
def text (x : Binary64) : List Char := x.textWith Decimal.plain

/-- Whether the debug text of a magnitude is positional: zero, and from one ten-thousandth up to,
but without, ten to the sixteenth. -/
def isPositional (magnitude : Nat) : Bool :=
  magnitude == 0 ||
    (decide (magnitudeOfRatio 1 10000 ≤ magnitude) &&
      decide (magnitude < magnitudeOfRatio 10000000000000000 1))

/-- The debug text of a number. -/
def debugText (x : Binary64) : List Char :=
  x.textWith (if isPositional x.magnitude then Decimal.positional else Decimal.scientific)

end Binary64

end LoxLex
