import LoxLex.Binary64
import Mathlib.Tactic.Lemma
import Mathlib.Tactic.Positivity
import Mathlib.Tactic.Ring

set_option relaxedAutoImplicit false
set_option autoImplicit false

/-!
# Rounding to floating-point numbers

A finite magnitude is a significand at a scale, and a ratio rounds to it if it is close enough to
its value. How close is said relative to the value: one part in `2 * 10 ^ 16` does not lead away
from it, as no significand has more than 53 binary digits.

## Main definitions

* `LoxLex.Binary64.AtScale` — the scale at which a ratio is rounded.
* `LoxLex.Binary64.IsClose` — numbers that differ by one part in `2 * 10 ^ 16` at most.

## Main results

* `LoxLex.Binary64.roundDiv_near` — a rounded quotient is off by one half at most.
* `LoxLex.Binary64.units_of_parts` — the value of a significand at a scale.
* `LoxLex.Binary64.magnitudeOfRatio_of_isClose` — what is close to a value rounds to it.
* `LoxLex.Binary64.unitsPerOne_dvd_units` — a natural number rounds to a whole number.
-/

namespace LoxLex.Binary64

/-! ## Rounded quotients -/

section Quotients

variable {num den q : ℕ}

/-- A rounded quotient is off by one half at most. -/
lemma roundDiv_near (num : ℕ) (hden : 0 < den) :
    2 * num ≤ 2 * (roundDiv num den * den) + den ∧
      2 * (roundDiv num den * den) ≤ 2 * num + den := by
  have hnum : num / den * den + num % den = num := Nat.div_add_mod' num den
  have hrest : num % den < den := Nat.mod_lt num hden
  unfold roundDiv
  simp only
  split
  · omega
  · split
    · rw [Nat.add_mul, Nat.one_mul]
      omega
    · -- a half goes to the even one of the two neighbours
      rcases Nat.mod_two_eq_zero_or_one (num / den) with heven | hodd
      · rw [heven, Nat.add_zero]
        omega
      · rw [hodd, Nat.add_mul, Nat.one_mul]
        omega

/-- What is below a quotient is not above the rounded one. -/
lemma le_roundDiv (hden : 0 < den) (h : q * den ≤ num) : q ≤ roundDiv num den := by
  obtain ⟨hnear, -⟩ := roundDiv_near num hden
  by_contra hlt
  have hstep : (roundDiv num den + 1) * den ≤ q * den := Nat.mul_le_mul_right den (by omega)
  rw [Nat.add_mul, Nat.one_mul] at hstep
  omega

/-- What is above a quotient is not below the rounded one. -/
lemma roundDiv_le (hden : 0 < den) (h : num ≤ q * den) : roundDiv num den ≤ q := by
  obtain ⟨-, hnear⟩ := roundDiv_near num hden
  by_contra hlt
  have hstep : (q + 1) * den ≤ roundDiv num den * den := Nat.mul_le_mul_right den (by omega)
  rw [Nat.add_mul, Nat.one_mul] at hstep
  omega

/-- A quotient rounds to what it is off from by less than one half. -/
lemma roundDiv_eq (hlow : 2 * (q * den) < 2 * num + den) (hhigh : 2 * num < 2 * (q * den) + den) :
    roundDiv num den = q := by
  obtain ⟨hnear, hnear'⟩ := roundDiv_near num (show 0 < den by omega)
  rcases Nat.lt_trichotomy (roundDiv num den) q with hlt | heq | hgt
  · have hstep : (roundDiv num den + 1) * den ≤ q * den := Nat.mul_le_mul_right den hlt
    rw [Nat.add_mul, Nat.one_mul] at hstep
    omega
  · exact heq
  · have hstep : (q + 1) * den ≤ roundDiv num den * den := Nat.mul_le_mul_right den hgt
    rw [Nat.add_mul, Nat.one_mul] at hstep
    omega

/-- Nothing is rounded if the quotient is a natural number. -/
lemma roundDiv_mul_self (q : ℕ) (hden : 0 < den) : roundDiv (q * den) den = q :=
  roundDiv_eq (by omega) (by omega)

/-- A rounded quotient does not depend on a common factor. -/
lemma roundDiv_mul_mul (num den : ℕ) {c : ℕ} (hc : 0 < c) :
    roundDiv (num * c) (den * c) = roundDiv num den := by
  have hlt : ∀ a b : ℕ, a * c < b * c ↔ a < b := fun a b => Nat.mul_lt_mul_right hc
  unfold roundDiv
  simp only [Nat.mul_div_mul_right _ _ hc, Nat.mul_mod_mul_right, ← Nat.mul_assoc, hlt]

end Quotients

/-! ## Significands and scales -/

/-- The scale at which one is a unit. -/
def unitScale : ℕ := 1074

/-- The number of units in one, as a power of two. -/
lemma unitsPerOne_eq : unitsPerOne = 2 ^ unitScale := Nat.one_shiftLeft unitScale

/-- There are units. -/
lemma unitsPerOne_pos : 0 < unitsPerOne := by
  rw [unitsPerOne_eq]
  exact Nat.two_pow_pos unitScale

/-- A magnitude is made of its scale and its significand. -/
lemma scale_add_significand (m : ℕ) : scale m * exponentStep + significand m = m := by
  unfold significand scale exponentStep
  omega

/-- A significand has 53 binary digits at most. -/
lemma significand_lt (m : ℕ) : significand m < 2 * exponentStep := by
  unfold significand scale exponentStep
  omega

/-- A significand has all of its 53 binary digits unless the scale is the lowest one. -/
lemma scale_eq_zero_or (m : ℕ) : scale m = 0 ∨ exponentStep ≤ significand m := by
  unfold significand scale exponentStep
  omega

/-- The value of a magnitude by its parts. -/
lemma units_eq (m : ℕ) : units m = significand m * 2 ^ scale m := Nat.shiftLeft_eq _ _

/-- The value of a significand at a scale. The first significand of the next scale may be given
at this one. -/
lemma units_of_parts {t q : ℕ} (hq : q ≤ 2 * exponentStep) (ht : t = 0 ∨ exponentStep ≤ q) :
    units (t * exponentStep + q) = q * 2 ^ t := by
  rcases Nat.lt_or_ge q (2 * exponentStep) with hlt | hge
  · have hscale : scale (t * exponentStep + q) = t := by
      unfold scale exponentStep at *
      omega
    have hsignificand : significand (t * exponentStep + q) = q := by
      rw [significand, hscale, Nat.add_sub_cancel_left]
    rw [units_eq, hscale, hsignificand]
  · obtain rfl : q = 2 * exponentStep := Nat.le_antisymm hq hge
    have hscale : scale (t * exponentStep + 2 * exponentStep) = t + 1 := by
      unfold scale exponentStep
      omega
    have hsignificand : significand (t * exponentStep + 2 * exponentStep) = exponentStep := by
      rw [significand, hscale]
      unfold exponentStep
      omega
    rw [units_eq, hscale, hsignificand]
    ring

/-- Only zero has no units. -/
lemma units_pos {m : ℕ} (hm : 0 < m) : 0 < units m := by
  have hparts := scale_add_significand m
  have hsignificand : 0 < significand m := by
    rcases scale_eq_zero_or m with hzero | hle
    · rw [hzero] at hparts
      omega
    · unfold exponentStep at hle
      omega
  rw [units_eq]
  positivity

/-! ## Rounded ratios -/

/-- The scale at which a ratio is rounded: all of the 53 binary digits are before the point there,
unless the scale is the lowest one, and no more of them. -/
structure AtScale (num den t : ℕ) : Prop where
  /-- The first digit is the 53rd one at least. -/
  lower : t = 0 ∨ exponentStep * (2 ^ t * den) ≤ num * unitsPerOne
  /-- The first digit is the 53rd one at most. -/
  upper : num * unitsPerOne < 2 * exponentStep * (2 ^ t * den)

section Ratios

variable {num den t : ℕ}

/-- The number of binary digits of a ratio tells its scale. -/
lemma AtScale.log2_eq (h : AtScale num den t) (hden : 0 < den) :
    Nat.log2 (num * unitsPerOne / den) - 52 = t := by
  have hupper : num * unitsPerOne / den < 2 ^ (53 + t) := by
    rw [Nat.div_lt_iff_lt_mul hden, Nat.pow_add, Nat.mul_assoc]
    exact h.upper
  have hlower : t = 0 ∨ 2 ^ (52 + t) ≤ num * unitsPerOne / den := by
    refine h.lower.imp_right fun hle => ?_
    rw [Nat.le_div_iff_mul_le hden, Nat.pow_add, Nat.mul_assoc]
    exact hle
  rcases Nat.eq_zero_or_pos (num * unitsPerOne / den) with hzero | hpos
  · rw [hzero] at hlower ⊢
    refine (hlower.resolve_right fun hle => ?_).symm
    exact absurd hle (Nat.not_le.2 (Nat.two_pow_pos _))
  · have hlog : Nat.log2 (num * unitsPerOne / den) < 53 + t := (Nat.log2_lt hpos.ne').2 hupper
    rcases hlower with rfl | hlower
    · omega
    · have hlog' : 52 + t ≤ Nat.log2 (num * unitsPerOne / den) :=
        (Nat.le_log2 hpos.ne').2 hlower
      omega

/-- Every ratio is rounded at a scale. -/
lemma exists_atScale (num : ℕ) (hden : 0 < den) : ∃ t, AtScale num den t := by
  let n := num * unitsPerOne / den
  have hupper : n < 2 ^ (Nat.log2 n + 1) := Nat.lt_log2_self
  refine ⟨Nat.log2 n - 52, ?_, ?_⟩
  · by_cases hzero : Nat.log2 n - 52 = 0
    · exact .inl hzero
    · right
      have hpow : 2 ^ (52 + (Nat.log2 n - 52)) ≤ n := by
        rw [show 52 + (Nat.log2 n - 52) = Nat.log2 n by omega]
        refine Nat.log2_self_le fun hn => hzero ?_
        rw [hn]
        rfl
      rwa [Nat.le_div_iff_mul_le hden, Nat.pow_add, Nat.mul_assoc] at hpow
  · have hpow : n < 2 ^ (53 + (Nat.log2 n - 52)) :=
      Nat.lt_of_lt_of_le hupper (Nat.pow_le_pow_right (by omega) (by omega))
    rwa [Nat.div_lt_iff_lt_mul hden, Nat.pow_add, Nat.mul_assoc] at hpow

/-- A rounded ratio by its parts: the significand is a rounded quotient. -/
lemma AtScale.magnitude_eq (h : AtScale num den t) (hden : 0 < den) :
    magnitudeOfRatio num den = min infinityMagnitude
      (t * exponentStep + roundDiv (num * unitsPerOne) (2 ^ t * den)) := by
  rw [magnitudeOfRatio]
  simp only [h.log2_eq hden]
  rw [Nat.shiftLeft_eq, Nat.mul_comm den]

/-- A ratio rounds to what it is off from by less than one half of its scale. -/
lemma AtScale.magnitude_eq_of_near {q : ℕ} (h : AtScale num den t) (hden : 0 < den)
    (hfinite : t * exponentStep + q ≤ infinityMagnitude)
    (hlow : 2 * (q * (2 ^ t * den)) < 2 * (num * unitsPerOne) + 2 ^ t * den)
    (hhigh : 2 * (num * unitsPerOne) < 2 * (q * (2 ^ t * den)) + 2 ^ t * den) :
    magnitudeOfRatio num den = t * exponentStep + q := by
  rw [h.magnitude_eq hden, roundDiv_eq hlow hhigh, Nat.min_eq_right hfinite]

/-- The value of a finite rounded ratio. -/
lemma AtScale.units_eq (h : AtScale num den t) (hden : 0 < den)
    (hfinite : magnitudeOfRatio num den < infinityMagnitude) :
    units (magnitudeOfRatio num den) =
      roundDiv (num * unitsPerOne) (2 ^ t * den) * 2 ^ t := by
  have hpos : 0 < 2 ^ t * den := by positivity
  have hmagnitude : magnitudeOfRatio num den =
      t * exponentStep + roundDiv (num * unitsPerOne) (2 ^ t * den) := by
    have hmin := h.magnitude_eq hden
    omega
  rw [hmagnitude]
  exact units_of_parts (roundDiv_le hpos h.upper.le) (h.lower.imp_right (le_roundDiv hpos))

/-- A ratio does not depend on a common factor. -/
lemma magnitudeOfRatio_mul_mul (num den : ℕ) {c : ℕ} (hc : 0 < c) :
    magnitudeOfRatio (num * c) (den * c) = magnitudeOfRatio num den := by
  have hnum : num * c * unitsPerOne = num * unitsPerOne * c := Nat.mul_right_comm _ _ _
  have hshift : ∀ s, (den * c) <<< s = den <<< s * c := by
    intro s
    rw [Nat.shiftLeft_eq, Nat.shiftLeft_eq, Nat.mul_right_comm]
  simp only [magnitudeOfRatio, hnum, hshift, Nat.mul_div_mul_right _ _ hc, roundDiv_mul_mul _ _ hc]

/-- A natural number rounds to a whole number.

**Proof sketch.** Up to the scale of the units in one nothing is rounded. From there on every value
is whole. -/
theorem unitsPerOne_dvd_units (n : ℕ) (hfinite : magnitudeOfRatio n 1 < infinityMagnitude) :
    unitsPerOne ∣ units (magnitudeOfRatio n 1) := by
  obtain ⟨t, hscale⟩ := exists_atScale n Nat.one_pos
  rw [hscale.units_eq Nat.one_pos hfinite, Nat.mul_one]
  rcases Nat.le_total t unitScale with hle | hge
  · have hunits : unitsPerOne = 2 ^ (unitScale - t) * 2 ^ t := by
      rw [unitsPerOne_eq, ← Nat.pow_add, Nat.sub_add_cancel hle]
    have hnum : n * unitsPerOne = n * 2 ^ (unitScale - t) * 2 ^ t := by rw [hunits, Nat.mul_assoc]
    rw [hnum, roundDiv_mul_self _ (Nat.two_pow_pos t), ← hnum]
    exact Nat.dvd_mul_left _ _
  · rw [unitsPerOne_eq]
    exact (Nat.pow_dvd_pow 2 hge).mul_left _

end Ratios

/-! ## Closeness -/

/-- A number that differs from another one by one part of it in `2 * 10 ^ 16` at most. -/
structure IsClose (a b : ℕ) : Prop where
  /-- It is not too large. -/
  upper : 20000000000000000 * a ≤ 20000000000000000 * b + b
  /-- It is not too small. -/
  lower : 20000000000000000 * b ≤ 20000000000000000 * a + b

/-- Every number is close to itself. -/
lemma IsClose.refl (a : ℕ) : IsClose a a := ⟨by omega, by omega⟩

/-- A ratio that is close to the value of a finite magnitude rounds to it.

**Proof sketch.** Let `w` be the denominator at the scale of the magnitude. As the significand is
less than `2 ^ 53`, the ratio is off by less than the half of `w`. It is rounded at the same scale,
except where the significand is the least one of its scale and the ratio is below it. There the
scale is one lower, and twice the significand is the significand of the ratio. -/
theorem magnitudeOfRatio_of_isClose {m num den : ℕ} (hden : 0 < den) (hm : m < infinityMagnitude)
    (h : IsClose (num * unitsPerOne) (units m * den)) : magnitudeOfRatio num den = m := by
  have hparts := scale_add_significand m
  have hlt := significand_lt m
  have hleast := scale_eq_zero_or m
  have hvalue : units m * den = significand m * (2 ^ scale m * den) := by
    rw [units_eq, Nat.mul_assoc]
  rw [hvalue] at h
  generalize significand m = q at *
  generalize scale m = t at *
  obtain ⟨hhigh, hlow⟩ := h
  have hw : 0 < 2 ^ t * den := by positivity
  have hupper : (q + 1) * (2 ^ t * den) ≤ 2 * exponentStep * (2 ^ t * den) :=
    Nat.mul_le_mul_right _ hlt
  rw [Nat.add_mul, Nat.one_mul] at hupper
  by_cases hsame : t = 0 ∨ exponentStep * (2 ^ t * den) ≤ num * unitsPerOne
  · have hscale : AtScale num den t := by
      refine ⟨hsame, ?_⟩
      unfold exponentStep at *
      omega
    rw [← hparts] at hm ⊢
    apply hscale.magnitude_eq_of_near hden hm.le <;> unfold exponentStep at * <;> omega
  · obtain ⟨hpos, hbelow⟩ := not_or.1 hsame
    obtain ⟨s, rfl⟩ := Nat.exists_eq_add_one_of_ne_zero hpos
    have hq : q = exponentStep := by
      refine Nat.le_antisymm (Nat.le_of_not_lt fun hgt => ?_) (hleast.resolve_left hpos)
      have hmore : (exponentStep + 1) * (2 ^ (s + 1) * den) ≤ q * (2 ^ (s + 1) * den) :=
        Nat.mul_le_mul_right _ hgt
      rw [Nat.add_mul, Nat.one_mul] at hmore
      unfold exponentStep at *
      omega
    have hhalf : 2 ^ (s + 1) * den = 2 * (2 ^ s * den) := by ring
    have hsum : s * exponentStep + 2 * exponentStep = m := by
      rw [← hparts, hq, Nat.add_mul, Nat.one_mul]
      omega
    rw [hq, hhalf] at hhigh hlow
    rw [hhalf] at hbelow
    have hscale : AtScale num den s := by
      refine ⟨.inr ?_, ?_⟩ <;> unfold exponentStep at * <;> omega
    rw [← hsum] at hm ⊢
    apply hscale.magnitude_eq_of_near hden hm.le <;> unfold exponentStep at * <;> omega

end LoxLex.Binary64
