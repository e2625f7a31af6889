import LoxLex.Binary64

set_option relaxedAutoImplicit false
set_option autoImplicit false

/-!
# The shortest decimal digits

The fewest decimal digits that read back as a given floating-point number, and among those with
that many digits the nearest to its value.

The decimals `d * 10 ^ g` with one exponent `g` form a grid. The grids are tried from the coarsest
one on, which has only the power of ten above the value. On each of them the two neighbours of the
value are tested by reading them back, and the first grid on which one passes has the answer.
Seventeen digits always suffice; behind the last grid stands the exact value, so that the result
reads back whatever the search does.

## Main definitions

* `LoxLex.Decimal` — digits and an exponent of ten.
* `LoxLex.Decimal.magnitude` — the floating-point magnitude nearest to a decimal.
* `LoxLex.Decimal.nearestOnGrid?` — the decimal of one grid that reads back.
* `LoxLex.Decimal.shortest` — the decimal with the fewest digits that reads back.
-/

namespace LoxLex

/-- The value `digits * 10 ^ exponent`. -/
structure Decimal where
  /-- The digits, read as one natural number. -/
  digits : Nat
  /-- The power of ten that they are scaled by. -/
  exponent : Int
deriving DecidableEq

namespace Decimal

open Binary64

/-- The numerator of a decimal. -/
def num (d : Decimal) : Nat :=
  match d.exponent with
  | .ofNat k => d.digits * Nat.pow 10 k
  | .negSucc _ => d.digits

/-- The denominator of a decimal. -/
def den (d : Decimal) : Nat :=
  match d.exponent with
  | .ofNat _ => 1
  | .negSucc k => Nat.pow 10 (k + 1)

/-- The floating-point magnitude nearest to a decimal. -/
def magnitude (d : Decimal) : Nat := magnitudeOfRatio d.num d.den

/-- The exact value of a finite magnitude. -/
def exact (m : Nat) : Decimal := ⟨units m * Nat.pow 5 1074, -1074⟩

/-- The number of digits before the point of a finite magnitude; negative or zero if its first
digit comes later. The factor makes a whole number of every value, with that many more digits. -/
def pointPosition (m : Nat) : Int :=
  (Nat.toDigits 10 (units m * Nat.pow 10 400 / unitsPerOne)).length - 400

/-- The decimal with exponent `g` that reads back as `m`, if there is one: of two the nearer to
the value, and the larger one if both are equally near. -/
def nearestOnGrid? (m : Nat) (g : Int) : Option Decimal :=
  let num := match g with
    | .ofNat _ => units m
    | .negSucc k => units m * Nat.pow 10 (k + 1)
  let den := match g with
    | .ofNat k => unitsPerOne * Nat.pow 10 k
    | .negSucc _ => unitsPerOne
  let below : Decimal := ⟨num / den, g⟩
  let above : Decimal := ⟨num / den + 1, g⟩
  if below.magnitude = m then
    if above.magnitude = m ∧ den ≤ 2 * (num % den) then some above else some below
  else if above.magnitude = m then some above
  else none

/-- The decimal with the fewest digits that reads back as the finite magnitude `m`. -/
def shortest (m : Nat) : Decimal :=
  if m = 0 then ⟨0, 0⟩
  else
    let onGrid (k : Nat) := nearestOnGrid? m (pointPosition m - (k : Nat))
    ((List.range 18).findSome? onGrid).getD (exact m)

end Decimal

end LoxLex
