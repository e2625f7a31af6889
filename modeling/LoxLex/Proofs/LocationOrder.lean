import LoxLex.Location
import Mathlib.Data.List.Induction
import Mathlib.Tactic.Lemma

set_option relaxedAutoImplicit false
set_option autoImplicit false

/-!
# Locations as places in a text

Lines come before columns in the order of locations. Walking over a text leads to ever later
locations, so within one text a location names one place; and the location of a place can be read
off what is before it, by counting newlines and the characters behind the last one.

## Main definitions

* `LoxLex.referenceLocation` — the location behind a text, by counting.
* `LoxLex.locationAt` — the location of a place in a text.

## Main results

* `LoxLex.Location.after_start` — counting agrees with walking over the text.
* `LoxLex.locationAt_lt` — later places have later locations.
-/

namespace LoxLex

namespace Location

/-- An earlier line, or an earlier column of the same line. -/
lemma lt_iff {a b : Location} : a < b ↔ a.line < b.line ∨ a.line = b.line ∧ a.col < b.col := by
  show (compare a.line b.line).then (compare a.col b.col) = .lt ↔ _
  rw [Ordering.then_eq_lt, Nat.compare_eq_lt, Nat.compare_eq_eq, Nat.compare_eq_lt]

/-- An earlier line, or a column of the same line that is not later. -/
lemma le_iff {a b : Location} : a ≤ b ↔ a.line < b.line ∨ a.line = b.line ∧ a.col ≤ b.col := by
  show ((compare a.line b.line).then (compare a.col b.col)).isLE = true ↔ _
  rw [Ordering.isLE_then_iff_or, Nat.compare_eq_lt, Nat.compare_eq_eq, Nat.isLE_compare]

/-- Every location is at most itself. -/
protected lemma le_refl (a : Location) : a ≤ a := by
  rw [le_iff]
  omega

/-- What is earlier is not later. -/
protected lemma le_of_lt {a b : Location} (h : a < b) : a ≤ b := by
  rw [lt_iff] at h
  rw [le_iff]
  omega

/-- The order may be followed in two steps, the first of them strict. -/
protected lemma lt_of_lt_of_le {a b c : Location} (h : a < b) (h' : b ≤ c) : a < c := by
  rw [lt_iff] at h ⊢
  rw [le_iff] at h'
  omega

/-- The order may be followed in two steps. -/
protected lemma le_trans {a b c : Location} (h : a ≤ b) (h' : b ≤ c) : a ≤ c := by
  rw [le_iff] at h h' ⊢
  omega

/-- Of two locations one is at most the other. -/
protected lemma not_lt {a b : Location} : ¬ a < b ↔ b ≤ a := by
  rw [lt_iff, le_iff]
  omega

/-- Two locations of which neither is later are the same. -/
protected lemma le_antisymm {a b : Location} (h : a ≤ b) (h' : b ≤ a) : a = b := by
  obtain ⟨line, col⟩ := a
  obtain ⟨line', col'⟩ := b
  rw [le_iff] at h h'
  simp only [mk.injEq] at h h' ⊢
  omega

/-! ## Walking over a text -/

/-- Every character leads to a later location. -/
lemma lt_step (l : Location) (ch : Char) : l < l.step ch := by
  rw [lt_iff, step]
  split <;> simp

/-- No text leads to an earlier location. -/
lemma le_after (l : Location) (text : List Char) : l ≤ l.after text := by
  induction text generalizing l with
  | nil => exact l.le_refl
  | cons ch text ih => exact Location.le_trans (Location.le_of_lt (l.lt_step ch)) (ih _)

/-- A text that is not empty leads to a later location. -/
lemma lt_after (l : Location) {text : List Char} (h : text ≠ []) : l < l.after text := by
  obtain ⟨ch, text, rfl⟩ := List.exists_cons_of_ne_nil h
  exact Location.lt_of_lt_of_le (l.lt_step ch) (le_after _ text)

/-- Characters that are no newlines lead on in their line. -/
lemma after_of_not_mem {text : List Char} (h : '\n' ∉ text) (l : Location) :
    l.after text = ⟨l.line, l.col + text.length⟩ := by
  induction text generalizing l with
  | nil => rfl
  | cons ch text ih =>
    obtain ⟨hch, htext⟩ : ¬ '\n' = ch ∧ '\n' ∉ text := by simpa using h
    rw [after_cons, ih htext, step, if_neg (Ne.symm hch), List.length_cons]
    simp [Nat.add_comm, Nat.add_left_comm]

end Location

/-! ## Counting -/

/-- The location behind a text that begins a source: one more than the newlines in the text, and
one more than the characters behind the last of them. -/
def referenceLocation (before : List Char) : Location :=
  ⟨1 + before.count '\n', 1 + (before.reverse.takeWhile (· != '\n')).length⟩

/-- Counting agrees with walking over the text.

**Proof sketch.** Induction on the text from its end. A newline counts for the line and leaves no
character behind the last newline; any other character counts for the column. -/
theorem Location.after_start (before : List Char) :
    Location.start.after before = referenceLocation before := by
  induction before using List.reverseRecOn with
  | nil => rfl
  | append_singleton before ch ih =>
    rw [Location.after_append, ih, Location.after_cons, Location.after_nil, Location.step]
    split
    · next h => simp [referenceLocation, h, Nat.add_assoc]
    · next h => simp [referenceLocation, h, Nat.add_comm]

/-- The location of the place that has `i` characters of the source before it. -/
def locationAt (source : List Char) (i : Nat) : Location := referenceLocation (source.take i)

/-- The location behind the first part of a source. -/
lemma locationAt_append (a b : List Char) :
    locationAt (a ++ b) a.length = Location.start.after a := by
  rw [locationAt, List.take_left, Location.after_start]

/-- Later places have later locations. -/
lemma locationAt_lt {source : List Char} {i j : Nat} (h : i < j) (hj : j ≤ source.length) :
    locationAt source i < locationAt source j := by
  have hsplit : source.take j = source.take i ++ (source.take j).drop i := by
    conv_lhs => rw [← List.take_append_drop i (source.take j)]
    rw [List.take_take, Nat.min_eq_left (Nat.le_of_lt h)]
  have hne : (source.take j).drop i ≠ [] := by
    rw [← List.length_pos_iff, List.length_drop, List.length_take]
    omega
  rw [locationAt, locationAt, ← Location.after_start, ← Location.after_start, hsplit,
    Location.after_append]
  exact Location.lt_after _ hne

/-- A location names one place of a source. -/
lemma locationAt_inj {source : List Char} {i j : Nat} (hi : i ≤ source.length)
    (hj : j ≤ source.length) : locationAt source i = locationAt source j ↔ i = j := by
  constructor
  · intro h
    rcases Nat.lt_trichotomy i j with hlt | heq | hlt
    · have := h ▸ locationAt_lt hlt hj
      exact absurd this (Location.not_lt.2 (Location.le_refl _))
    · exact heq
    · have := h ▸ locationAt_lt hlt hi
      exact absurd this (Location.not_lt.2 (Location.le_refl _))
  · rintro rfl
    rfl

end LoxLex
