set_option relaxedAutoImplicit false
set_option autoImplicit false

/-!
# Binary floating-point numbers of 64 bits

A number as its sign and its magnitude, the magnitude being the lower 63 bits of the interchange
format read as a natural number. Magnitudes are ordered as the values they stand for: first the
finite ones from zero up, then infinity, then everything that is not a number. All arithmetic is
exact arithmetic on natural numbers.

The finite magnitude `M` stands for `significand M * 2 ^ scale M` units of `2 ^ (-1074)`, which is
the distance between the numbers next to zero.

## Main definitions

* `LoxLex.Binary64` — the numbers, with `ofBits` and `toBits` for the interchange format.
* `LoxLex.Binary64.equal` — numeric equality.
* `LoxLex.Binary64.roundDiv` — a quotient rounded to the nearest natural number, a half to even.
* `LoxLex.Binary64.ofRatio` — the number nearest to a quotient of natural numbers.

## Main results

* `LoxLex.Binary64.ofRatio_not_isNaN` — a quotient always rounds to a number.
-/

namespace LoxLex

/-- A floating-point number of 64 bits. -/
structure Binary64 where
  /-- The sign bit. -/
  negative : Bool
  /-- The other 63 bits. -/
  magnitude : Nat
  /-- There are only 63 of them. -/
  magnitude_lt : magnitude < 0x8000000000000000
deriving DecidableEq

namespace Binary64

/-- The magnitude of infinity: an exponent field of ones over a fraction of zero. -/
def infinityMagnitude : Nat := 0x7ff0000000000000

/-- Infinity fits into the 63 bits. -/
theorem infinityMagnitude_lt : infinityMagnitude < 0x8000000000000000 := by decide

/-- The number with a given word of the interchange format. -/
def ofBits (bits : UInt64) : Binary64 :=
  ⟨decide (0x8000000000000000 ≤ bits.toNat), bits.toNat % 0x8000000000000000,
    Nat.mod_lt _ (by decide)⟩

/-- The word of a number in the interchange format. -/
def toBits (x : Binary64) : UInt64 :=
  UInt64.ofNat (if x.negative then 0x8000000000000000 + x.magnitude else x.magnitude)

/-- Positive zero. -/
def zero : Binary64 := ⟨false, 0, by decide⟩

/-- Whether this is no number at all. -/
def isNaN (x : Binary64) : Bool := decide (infinityMagnitude < x.magnitude)

/-- Whether this is one of the two infinities. -/
def isInfinite (x : Binary64) : Bool := x.magnitude == infinityMagnitude

/-- Whether this has a finite value. -/
def isFinite (x : Binary64) : Bool := decide (x.magnitude < infinityMagnitude)

/-- Numeric equality: what is no number equals nothing, not even itself, and the two zeros are
equal. -/
def equal (x y : Binary64) : Bool :=
  !x.isNaN && !y.isNaN && (x == y || (x.magnitude == 0 && y.magnitude == 0))

/-! ## Values -/

/-- The distance in magnitude from one exponent field to the next: `2 ^ 52`, as the fraction field
has 52 bits. -/
def exponentStep : Nat := 0x10000000000000

/-- The power of two by which the significand of a magnitude is scaled. -/
def scale (magnitude : Nat) : Nat := magnitude / exponentStep - 1

/-- The significand of a magnitude: the fraction field, with the leading bit that the format
leaves out. -/
def significand (magnitude : Nat) : Nat := magnitude - scale magnitude * exponentStep

/-- The value of a finite magnitude in units of `2 ^ (-1074)`. -/
def units (magnitude : Nat) : Nat := significand magnitude <<< scale magnitude

/-- The number of units in one. -/
def unitsPerOne : Nat := 1 <<< 1074

/-- Whether a finite number has nothing behind the point. -/
def isWhole (x : Binary64) : Bool := units x.magnitude % unitsPerOne == 0

/-! ## Rounding -/

/-- The quotient rounded to the nearest natural number, a half to the even neighbour. -/
def roundDiv (num den : Nat) : Nat :=
  let q := num / den
  let r := num % den
  if 2 * r < den then q
  else if den < 2 * r then q + 1
  else q + q % 2

/-- The magnitude nearest to `num / den`.

The quotient in units has some number of binary digits; all but the first 53 of them are scaled
away, and the rest is rounded. Magnitudes grow by `exponentStep` with each step of the scale, and a
significand rounded up to `2 ^ 53` is the first one of the next step, so the sum below is right
in both cases. Beyond the largest finite magnitude lies infinity. -/
def magnitudeOfRatio (num den : Nat) : Nat :=
  let n := num * unitsPerOne
  let s := Nat.log2 (n / den) - 52
  min infinityMagnitude (s * exponentStep + roundDiv n (den <<< s))

/-- A rounded quotient is at most infinity. -/
theorem magnitudeOfRatio_le (num den : Nat) : magnitudeOfRatio num den ≤ infinityMagnitude :=
  Nat.min_le_left _ _

/-- The number nearest to `num / den`. -/
def ofRatio (num den : Nat) : Binary64 :=
  ⟨false, magnitudeOfRatio num den,
    Nat.lt_of_le_of_lt (magnitudeOfRatio_le num den) infinityMagnitude_lt⟩

/-- A quotient always rounds to a number. -/
theorem ofRatio_not_isNaN (num den : Nat) : (ofRatio num den).isNaN = false :=
  decide_eq_false (Nat.not_lt.2 (magnitudeOfRatio_le num den))

end Binary64

end LoxLex
