import LoxLex.Binary64.Shortest
import LoxLex.Proofs.Rounding
import Mathlib.Data.List.Range

set_option relaxedAutoImplicit false
set_option autoImplicit false

/-!
# Shortest decimals read back

The search for the shortest decimal of a finite magnitude always succeeds on a grid, and then its
decimal reads back by the test that it passed. It succeeds as two neighbours on a grid of 17 digits
are so near that one of them is close to the value in between. The grid of the natural numbers has
every whole value itself, and natural numbers round to whole values only: so the digits of a
shortest decimal end before the point just if its value is whole.

## Main definitions

* `LoxLex.Decimal.unit` — one at an exponent.
* `LoxLex.Decimal.digitsBelow` — the digits of the neighbour below a value on a grid.

## Main results

* `LoxLex.Decimal.isSome_nearestOnGrid?_of_fine` — the search succeeds on fine grids.
* `LoxLex.Decimal.exists_grid` — seventeen digits suffice.
* `LoxLex.Decimal.shortest_magnitude` — shortest decimals read back.
* `LoxLex.Decimal.shortest_exponent_nonneg_iff` — which of them have nothing behind the point.
-/

namespace LoxLex.Decimal

open Binary64

/-! ## Grids -/

/-- The decimal of a grid from which all others are counted. -/
def unit (g : Int) : Decimal := ⟨1, g⟩

/-- The numerator of a decimal on its grid. -/
lemma num_eq (d : Decimal) : d.num = d.digits * (unit d.exponent).num := by
  obtain ⟨digits, k | k⟩ := d
  · simp [num, unit]
  · simp [num, unit]

/-- The denominator of a decimal is that of its grid. -/
lemma den_eq (d : Decimal) : d.den = (unit d.exponent).den := by
  obtain ⟨digits, k | k⟩ := d <;> rfl

/-- Denominators are positive. -/
lemma den_pos (d : Decimal) : 0 < d.den := by
  obtain ⟨digits, k | k⟩ := d
  · exact Nat.one_pos
  · exact Nat.pow_pos (by decide)

/-- Units are positive. -/
lemma unit_num_pos (g : Int) : 0 < (unit g).num := by
  obtain k | k := g
  · exact Nat.mul_pos Nat.one_pos (Nat.pow_pos (by decide))
  · exact Nat.one_pos

/-- The unit at a difference of exponents is a quotient of powers of ten. -/
lemma unit_num_mul (i j : ℕ) :
    (unit ((i : Int) - (j : Int))).num * 10 ^ j = (unit ((i : Int) - (j : Int))).den * 10 ^ i := by
  rcases Nat.le_total j i with hle | hle
  · obtain ⟨k, rfl⟩ := Nat.exists_eq_add_of_le hle
    rw [show ((j + k : ℕ) : Int) - (j : Int) = Int.ofNat k by simp]
    show 1 * 10 ^ k * 10 ^ j = 1 * 10 ^ (j + k)
    rw [Nat.pow_add]
    ring
  · obtain ⟨k, rfl⟩ := Nat.exists_eq_add_of_le hle
    cases k with
    | zero => simp [unit, num, den]
    | succ k =>
      rw [show (i : Int) - ((i + (k + 1) : ℕ) : Int) = Int.negSucc k by
        rw [Int.negSucc_eq]
        omega]
      show 1 * 10 ^ (i + (k + 1)) = 10 ^ (k + 1) * 10 ^ i
      rw [Nat.pow_add]
      ring

/-- The digits of the neighbour below the value of a magnitude on a grid. -/
def digitsBelow (m : ℕ) (g : Int) : ℕ :=
  units m * (unit g).den / (unitsPerOne * (unit g).num)

/-- The search on a grid tests the two neighbours. -/
private lemma nearestOnGrid?_eq (m : ℕ) (g : Int) :
    nearestOnGrid? m g =
      if (Decimal.mk (digitsBelow m g) g).magnitude = m then
        if (Decimal.mk (digitsBelow m g + 1) g).magnitude = m ∧
            unitsPerOne * (unit g).num ≤
              2 * (units m * (unit g).den % (unitsPerOne * (unit g).num)) then
          some ⟨digitsBelow m g + 1, g⟩
        else some ⟨digitsBelow m g, g⟩
      else if (Decimal.mk (digitsBelow m g + 1) g).magnitude = m then
        some ⟨digitsBelow m g + 1, g⟩
      else none := by
  obtain k | k := g <;> simp [nearestOnGrid?, digitsBelow, unit, num, den]

/-- What is found on a grid reads back, and is on this grid. -/
lemma of_nearestOnGrid? {m : ℕ} {g : Int} {d : Decimal} (h : nearestOnGrid? m g = some d) :
    d.magnitude = m ∧ d.exponent = g := by
  rw [nearestOnGrid?_eq] at h
  split_ifs at h with hbelow hboth habove
  · cases h
    exact ⟨hboth.1, rfl⟩
  · cases h
    exact ⟨hbelow, rfl⟩
  · cases h
    exact ⟨habove, rfl⟩

/-- If one of the two neighbours reads back, something is found. -/
lemma isSome_nearestOnGrid? {m : ℕ} {g : Int}
    (h : (Decimal.mk (digitsBelow m g) g).magnitude = m ∨
      (Decimal.mk (digitsBelow m g + 1) g).magnitude = m) : (nearestOnGrid? m g).isSome := by
  rw [nearestOnGrid?_eq]
  split_ifs with hbelow hboth habove
  · rfl
  · rfl
  · rfl
  · exact absurd h (not_or.2 ⟨hbelow, habove⟩)

/-- A decimal reads back if it is close to the value of a magnitude. -/
lemma magnitude_eq_of_isClose {m digits : ℕ} {g : Int} (hm : m < infinityMagnitude)
    (h : IsClose (digits * (unitsPerOne * (unit g).num)) (units m * (unit g).den)) :
    (Decimal.mk digits g).magnitude = m := by
  apply magnitudeOfRatio_of_isClose (den_pos _) hm
  rw [num_eq, den_eq, Nat.mul_assoc, Nat.mul_comm (unit _).num]
  exact h

/-- On a grid with a distance of one part in `10 ^ 16` of a value at most, one of the two neighbours
of the value reads back: the nearer one. -/
lemma isSome_nearestOnGrid?_of_fine {m : ℕ} {g : Int} (hm : m < infinityMagnitude)
    (h : 10000000000000000 * (unitsPerOne * (unit g).num) ≤ units m * (unit g).den) :
    (nearestOnGrid? m g).isSome := by
  have hnum := Nat.div_add_mod' (units m * (unit g).den) (unitsPerOne * (unit g).num)
  have hrest := Nat.mod_lt (units m * (unit g).den) (Nat.mul_pos unitsPerOne_pos (unit_num_pos g))
  change digitsBelow m g * _ + _ = _ at hnum
  rcases Nat.le_total (2 * (units m * (unit g).den % (unitsPerOne * (unit g).num)))
    (unitsPerOne * (unit g).num) with hnear | hfar
  · refine isSome_nearestOnGrid? (.inl (magnitude_eq_of_isClose hm ⟨?_, ?_⟩)) <;> omega
  · refine isSome_nearestOnGrid? (.inr (magnitude_eq_of_isClose hm ⟨?_, ?_⟩)) <;>
      rw [Nat.add_mul, Nat.one_mul]
    · omega
    · omega

/-- A whole value is on the grid of the natural numbers. -/
lemma isSome_nearestOnGrid?_of_whole {m : ℕ} (hm : m < infinityMagnitude)
    (h : unitsPerOne ∣ units m) : (nearestOnGrid? m 0).isSome := by
  have hgrid : digitsBelow m 0 * (unitsPerOne * (unit 0).num) = units m * (unit 0).den := by
    apply Nat.div_mul_cancel
    simpa [unit, num, den] using h
  refine isSome_nearestOnGrid? (.inl (magnitude_eq_of_isClose hm ?_))
  rw [hgrid]
  exact .refl _

/-! ## The first digit -/

/-- To find the first digit, a value is scaled by so many powers of ten that even the least one is
not below one. -/
private lemma exists_shift (m : ℕ) :
    ∃ s : ℕ, unitScale ≤ 3 * s ∧
      pointPosition m =
        ((Nat.toDigits 10 (units m * Nat.pow 10 s / unitsPerOne)).length : Int) - (s : ℕ) := by
  -- the number of powers is named, as their product is too large to be computed
  obtain ⟨s, hs⟩ : ∃ s : ℕ, s = 400 := ⟨400, rfl⟩
  have hcast : (400 : Int) = (s : ℕ) := by rw [hs]; rfl
  refine ⟨s, by rw [hs]; decide, ?_⟩
  rw [pointPosition, ← hs, hcast]

/-- A power of ten that is larger than the number of units in one. -/
private lemma unitsPerOne_le_pow {s : ℕ} (hs : unitScale ≤ 3 * s) : unitsPerOne ≤ 10 ^ s := by
  rw [unitsPerOne_eq]
  calc 2 ^ unitScale ≤ 2 ^ (3 * s) := Nat.pow_le_pow_right (by decide) hs
    _ = 8 ^ s := by rw [Nat.pow_mul]
    _ ≤ 10 ^ s := Nat.pow_le_pow_left (by decide) s

/-- The first digit of a number is no zero. -/
private lemma pow_le_of_length_toDigits {n l : ℕ} (hn : 0 < n)
    (hl : (Nat.toDigits 10 n).length = l + 1) : 10 ^ l ≤ n := by
  cases l with
  | zero => exact hn
  | succ l =>
    by_contra hlt
    have hle := (Nat.length_toDigits_le_iff (by decide) l.succ_pos).2 (Nat.lt_of_not_le hlt)
    omega

/-- The position of the point bounds a value from below: it is a power of ten at least. -/
lemma exists_pointPosition {m : ℕ} (hm : 0 < m) :
    ∃ l s : ℕ, pointPosition m = ((l : ℕ) : Int) + 1 - (s : ℕ) ∧
      10 ^ l * unitsPerOne ≤ units m * 10 ^ s := by
  obtain ⟨s, hs, hposition⟩ := exists_shift m
  have hunits : 1 * unitsPerOne ≤ units m * 10 ^ s :=
    Nat.mul_le_mul (units_pos hm) (unitsPerOne_le_pow hs)
  obtain ⟨l, hl⟩ : ∃ l, (Nat.toDigits 10 (units m * 10 ^ s / unitsPerOne)).length = l + 1 :=
    Nat.exists_eq_add_one.2 Nat.length_toDigits_pos
  refine ⟨l, s, ?_, ?_⟩
  · rw [hposition, Nat.pow_eq, hl]
    rfl
  · have hfirst := pow_le_of_length_toDigits
      (Nat.div_pos (by rwa [Nat.one_mul] at hunits) unitsPerOne_pos) hl
    exact (Nat.le_div_iff_mul_le unitsPerOne_pos).1 hfirst

/-- A whole value other than zero has a digit before the point. -/
lemma pointPosition_pos_of_whole {m : ℕ} (hm : 0 < m) (h : unitsPerOne ∣ units m) :
    0 < pointPosition m := by
  obtain ⟨s, hs, hposition⟩ := exists_shift m
  have hunits : 10 ^ s * unitsPerOne ≤ units m * 10 ^ s := by
    rw [Nat.mul_comm]
    exact Nat.mul_le_mul_right _ (Nat.le_of_dvd (units_pos hm) h)
  have hlong : ¬ (Nat.toDigits 10 (units m * Nat.pow 10 s / unitsPerOne)).length ≤ s := by
    have hpos : 0 < s := by
      unfold unitScale at hs
      omega
    rw [Nat.length_toDigits_le_iff (by decide) hpos, Nat.not_lt]
    exact (Nat.le_div_iff_mul_le unitsPerOne_pos).2 hunits
  omega

/-! ## The search -/

/-- Seventeen digits suffice: the search succeeds on the last grid if on no other one. -/
lemma isSome_nearestOnGrid?_seventeen {m : ℕ} (hpos : 0 < m) (hm : m < infinityMagnitude) :
    (nearestOnGrid? m (pointPosition m - (17 : ℕ))).isSome := by
  obtain ⟨l, s, hposition, hvalue⟩ := exists_pointPosition hpos
  have hgrid : pointPosition m - (17 : ℕ) = ((l : ℕ) : Int) - ((s + 16 : ℕ) : Int) := by
    rw [hposition]
    omega
  rw [hgrid]
  apply isSome_nearestOnGrid?_of_fine hm
  have hunit := unit_num_mul l (s + 16)
  generalize unit ((l : Int) - ((s + 16 : ℕ) : Int)) = u at hunit
  apply Nat.le_of_mul_le_mul_right _ (Nat.pow_pos (show 0 < 10 by decide) : 0 < 10 ^ s)
  calc 10000000000000000 * (unitsPerOne * u.num) * 10 ^ s
      = unitsPerOne * (u.num * 10 ^ (s + 16)) := by rw [Nat.pow_add]; ring
    _ = u.den * (10 ^ l * unitsPerOne) := by rw [hunit]; ring
    _ ≤ u.den * (units m * 10 ^ s) := Nat.mul_le_mul_left _ hvalue
    _ = units m * u.den * 10 ^ s := by ring

/-- A search over the first numbers ends with the first one for which it succeeds. -/
private lemma exists_first {α : Type} {f : ℕ → Option α} {n : ℕ} {a : α}
    (h : (List.range n).findSome? f = some a) :
    ∃ k < n, f k = some a ∧ ∀ j < k, f j = none := by
  obtain ⟨before, k, behind, hrange, hk, hnone⟩ := List.findSome?_eq_some_iff.1 h
  have hmem : ∀ j, j < n ↔ j ∈ before ++ k :: behind := by
    intro j
    rw [← hrange, List.mem_range]
  have hsorted : (before ++ k :: behind).Pairwise (· < ·) := by
    rw [← hrange]
    exact List.pairwise_lt_range
  have hlt : k < n := (hmem k).2 (by simp)
  refine ⟨k, hlt, hk, fun j hj => ?_⟩
  rcases List.mem_append.1 ((hmem j).1 (hj.trans hlt)) with hbefore | hbehind
  · exact hnone j hbefore
  · have hle : k ≤ j := by
      rcases List.mem_cons.1 hbehind with rfl | hbehind
      · exact Nat.le_refl j
      · exact ((List.pairwise_cons.1 (List.pairwise_append.1 hsorted).2.1).1 j hbehind).le
    omega

/-- The search ends on the first grid on which it succeeds, with 17 digits at most. -/
lemma exists_grid {m : ℕ} (hpos : 0 < m) (hm : m < infinityMagnitude) :
    ∃ k ≤ 17, nearestOnGrid? m (pointPosition m - (k : ℕ)) = some (shortest m) ∧
      ∀ j < k, nearestOnGrid? m (pointPosition m - (j : ℕ)) = none := by
  let onGrid (k : ℕ) := nearestOnGrid? m (pointPosition m - (k : ℕ))
  obtain ⟨d, hd⟩ : ∃ d, (List.range 18).findSome? onGrid = some d :=
    Option.isSome_iff_exists.1 (List.findSome?_isSome_iff.2
      ⟨17, List.mem_range.2 (by decide), isSome_nearestOnGrid?_seventeen hpos hm⟩)
  have hshortest : shortest m = d := by
    rw [shortest, if_neg hpos.ne']
    show ((List.range 18).findSome? onGrid).getD (exact m) = d
    rw [hd, Option.getD_some]
  obtain ⟨k, hk, hfound, hnone⟩ := exists_first hd
  exact ⟨k, Nat.le_of_lt_succ hk, hshortest ▸ hfound, hnone⟩

/-- Shortest decimals read back. -/
theorem shortest_magnitude {m : ℕ} (hm : m < infinityMagnitude) : (shortest m).magnitude = m := by
  rcases Nat.eq_zero_or_pos m with rfl | hpos
  · apply magnitudeOfRatio_of_isClose (den_pos _) hm
    rw [show units 0 = 0 from rfl, Nat.zero_mul]
    exact ⟨by simp [shortest, num], by simp⟩
  · obtain ⟨k, -, hfound, -⟩ := exists_grid hpos hm
    exact (of_nearestOnGrid? hfound).1

/-- A shortest decimal has nothing behind the point just if its value is whole.

**Proof sketch.** A decimal without digits behind the point is a natural number, and these round to
whole values. A whole value is on the grid of the natural numbers, which comes before all grids with
digits behind the point. -/
theorem shortest_exponent_nonneg_iff {m : ℕ} (hm : m < infinityMagnitude) :
    0 ≤ (shortest m).exponent ↔ unitsPerOne ∣ units m := by
  have hreads := shortest_magnitude hm
  constructor
  · intro hexponent
    generalize shortest m = d at hreads hexponent
    obtain ⟨digits, g⟩ := d
    obtain ⟨k, rfl⟩ := Int.eq_ofNat_of_zero_le (a := g) hexponent
    have hnatural : magnitudeOfRatio (num ⟨digits, (k : ℕ)⟩) 1 = m := hreads
    rw [← hnatural]
    exact unitsPerOne_dvd_units _ (by rwa [hnatural])
  · intro hwhole
    rcases Nat.eq_zero_or_pos m with rfl | hpos
    · exact Int.le_refl 0
    · obtain ⟨k, hk, hfound, hnone⟩ := exists_grid hpos hm
      have hposition := pointPosition_pos_of_whole hpos hwhole
      rw [(of_nearestOnGrid? hfound).2]
      by_contra hneg
      obtain ⟨j, hj⟩ := Int.eq_ofNat_of_zero_le hposition.le
      have hone := hnone j (by omega)
      rw [hj, Int.sub_self] at hone
      exact absurd (isSome_nearestOnGrid?_of_whole hm hwhole) (by rw [hone]; decide)

end LoxLex.Decimal
