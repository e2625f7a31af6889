set_option relaxedAutoImplicit false
set_option autoImplicit false

/-!
# Sets of characters

A property of characters as the list of the ranges of code points that have it.

## Main definitions

* `LoxLex.CharSet`, `LoxLex.CharSet.contains`.

## Main results

* `LoxLex.CharSet.contains_iff` — a character is in the set if some range holds its code point.
-/

namespace LoxLex

/-- A set of characters, given by ranges of code points with both ends included. -/
structure CharSet where
  /-- First and last code point of each range. -/
  ranges : List (Nat × Nat)

namespace CharSet

/-- Whether a character is in the set. -/
def contains (s : CharSet) (c : Char) : Bool :=
  s.ranges.any fun r => decide (r.1 ≤ c.toNat) && decide (c.toNat ≤ r.2)

/-- A character is in the set if some range holds its code point. -/
theorem contains_iff (s : CharSet) (c : Char) :
    s.contains c = true ↔ ∃ r ∈ s.ranges, r.1 ≤ c.toNat ∧ c.toNat ≤ r.2 := by
  simp [contains]

end CharSet

end LoxLex
