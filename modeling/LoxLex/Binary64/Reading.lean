import LoxLex.Binary64
import LoxLex.Character

set_option relaxedAutoImplicit false
set_option autoImplicit false

/-!
# Reading decimal numbers

A decimal text is a run of digits, which may be followed by a point and a second run of digits.
It is read as the floating-point number nearest to its value.

## Main definitions

* `LoxLex.Binary64.ofDigits` — the number of two runs of digits.
* `LoxLex.Binary64.ofText?` — the number of a decimal text, for these texts only.
-/

namespace LoxLex.Binary64

/-- The number nearest to a decimal value, given by its digits before and after the point. -/
def ofDigits (whole fraction : List Char) : Binary64 :=
  ofRatio (Nat.ofDigitChars 10 (whole ++ fraction) 0) (Nat.pow 10 fraction.length)

/-- The number that a decimal text stands for: digits, or digits, a point and digits. No other
text stands for a number. -/
def ofText? (text : List Char) : Option Binary64 :=
  let whole := text.takeWhile isDigit
  if whole.isEmpty then none
  else
    match text.dropWhile isDigit with
    | [] => some (ofDigits whole [])
    | point :: fraction =>
      if point = '.' ∧ fraction ≠ [] ∧ fraction.all isDigit then some (ofDigits whole fraction)
      else none

end LoxLex.Binary64
