import LoxLex.Proofs.Relocation

set_option relaxedAutoImplicit false
set_option autoImplicit false

/-!
# Scanners on their way

A scanner that has yielded some items knows nothing of them but the place that it has come to. What
it still yields is what a fresh scanner yields for the text that is left, moved to that place: the
first line of what is left goes on with the line of the place, all further lines begin where lines
begin.

## Main definitions

* `LoxLex.Location.translate` — the location in a longer text of what has a location in the rest.

## Main results

* `LoxLex.Location.translate_after` — walking over the rest by itself and from where it stands.
* `LoxLex.Scanner.take_eq_relocate` — a scanner yields the items of what is left, moved.
* `LoxLex.scanner_resumes_as_fresh` — so does one that items were pulled from.
-/

namespace LoxLex

namespace Location

/-- The location, in a text whose rest begins at `origin`, of what stands at `l` in the rest by
itself. Only the first line of the rest has other characters in front of it. -/
def translate (origin l : Location) : Location :=
  if l.line = 1 then ⟨origin.line + l.line - 1, origin.col + l.col - 1⟩
  else ⟨origin.line + l.line - 1, l.col⟩

/-- Over one character both locations move in the same way, if lines and columns are counted from
one. -/
lemma translate_step (origin : Location) {l : Location} (hline : 1 ≤ l.line) (hcol : 1 ≤ l.col)
    (ch : Char) : origin.translate (l.step ch) = (origin.translate l).step ch := by
  by_cases hnewline : ch = '\n'
  -- The next line begins at its first column in both texts.
  · have hother : l.line + 1 ≠ 1 := by omega
    have hcount : origin.line + (l.line + 1) - 1 = origin.line + l.line - 1 + 1 := by omega
    simp only [step, if_pos hnewline, translate, if_neg hother, hcount]
    split <;> rfl
  · have hcount : origin.col + (l.col + 1) - 1 = origin.col + l.col - 1 + 1 := by omega
    simp only [step, if_neg hnewline, translate, hcount]
    split <;> rfl

/-- The locations of a rest by itself lead to those behind its origin.

**Proof sketch.** Induction on the text that is walked over. Lines and columns stay positive on the
way. -/
lemma translate_after_of_pos (origin : Location) {l : Location} (hline : 1 ≤ l.line)
    (hcol : 1 ≤ l.col) (text : List Char) :
    origin.translate (l.after text) = (origin.translate l).after text := by
  induction text generalizing l with
  | nil => rfl
  | cons ch text ih =>
    have hstep : 1 ≤ (l.step ch).line ∧ 1 ≤ (l.step ch).col := by
      unfold step
      split
      · exact ⟨Nat.le_add_left 1 l.line, Nat.le_refl 1⟩
      · exact ⟨hline, Nat.le_add_left 1 l.col⟩
    rw [after_cons, after_cons, ih hstep.1 hstep.2, translate_step origin hline hcol]

/-- What stands behind some text in the rest by itself stands behind the same text and the
origin. -/
lemma translate_after (origin : Location) (text : List Char) :
    origin.translate (start.after text) = origin.after text :=
  translate_after_of_pos origin (Nat.le_refl 1) (Nat.le_refl 1) text

end Location

namespace Scanner

/-- A scanner that has not yielded the end yields the items of the text that is left, moved to the
place where it stands.

**Proof sketch.** Both scanners yield the items of the pieces of what is left. -/
lemma take_eq_relocate (n : Nat) {s : Scanner} (h : s.finished = false) :
    (s.take n).1 =
      ((ofString (String.ofList s.cursor.rest)).take n).1.map
        (Item.relocate s.cursor.location.translate) := by
  obtain ⟨ps, hps⟩ := exists_splits s.cursor.rest
  have hfresh : Splits (String.ofList s.cursor.rest).toList ps := by rwa [String.toList_ofList]
  rw [take_of_splits n h hps, LoxLex.take_of_splits hfresh n, List.map_take,
    place_relocate (Location.translate_after s.cursor.location) ps]

/-- Pulling items none of which is the end does not finish a scanner. -/
lemma finished_take (n : Nat) {s : Scanner} (h : s.finished = false)
    (hitems : ∀ item ∈ (s.take n).1, item.isEnd = false) : (s.take n).2.finished = false := by
  induction n generalizing s with
  | zero => exact h
  | succ n ih =>
    rw [take, next, if_neg (by rw [h]; decide)] at hitems ⊢
    obtain ⟨hfirst, hothers⟩ := List.forall_mem_cons.1 hitems
    exact ih hfirst hothers

end Scanner

/-- **A scanner goes on like a fresh one.** Pull any number of items from a scanner, as long as none
of them is the end of the text. The items that it still yields, however many are pulled, are those
of a fresh scanner for the text that is left: of the same kinds, with the same values, lexemes and
characters, and with every location moved to where the scanner stands.

**Proof sketch.** The scanner has not yielded the end, so it yields the pieces of what is left. -/
theorem scanner_resumes_as_fresh (source : String) (k : Nat)
    (h : ∀ item ∈ ((Scanner.ofString source).take k).1, item.isEnd = false) :
    let s := ((Scanner.ofString source).take k).2
    let left := String.ofList s.cursor.rest
    (∀ n, (s.take n).1 =
        ((Scanner.ofString left).take n).1.map (Item.relocate s.cursor.location.translate)) ∧
      s.drain.1 = (items left).map (Item.relocate s.cursor.location.translate) := by
  intro s left
  have hunfinished : s.finished = false := Scanner.finished_take k rfl h
  have hlength : left.toList = s.cursor.rest := String.toList_ofList
  refine ⟨fun n => Scanner.take_eq_relocate n hunfinished, ?_⟩
  rw [items, Scanner.drain, Scanner.drain, Scanner.take_eq_relocate _ hunfinished]
  show _ = (((Scanner.ofString left).take (left.toList.length + 1)).1).map _
  rw [hlength]

/-- A scanner behind a name and an error, in the middle of a line; a string over two lines and an
open string are left. -/
theorem scanner_resumes_before_string :
    (∀ item ∈ ((Scanner.ofString "a é\"p\nq\"b\"").take 2).1, item.isEnd = false) ∧
      ((Scanner.ofString "a é\"p\nq\"b\"").take 2).2.drain.1 =
        (items "\"p\nq\"b\"").map (Item.relocate (Location.translate ⟨1, 4⟩)) ∧
      (items "\"p\nq\"b\"").map (Item.relocate (Location.translate ⟨1, 4⟩)) =
        [.token ⟨.literal (.string "p\nq"), "\"p\nq\"", ⟨⟨1, 4⟩, ⟨2, 3⟩⟩⟩,
          .token ⟨.identifier, "b", ⟨⟨2, 3⟩, ⟨2, 4⟩⟩⟩,
          .error (.unterminatedString ⟨⟨2, 4⟩, ⟨2, 5⟩⟩),
          .token ⟨.endOfInput, "", ⟨⟨2, 5⟩, ⟨2, 5⟩⟩⟩] := by
  have hpulled : ∀ item ∈ ((Scanner.ofString "a é\"p\nq\"b\"").take 2).1, item.isEnd = false := by
    decide +kernel
  have hleft : String.ofList ((Scanner.ofString "a é\"p\nq\"b\"").take 2).2.cursor.rest =
      "\"p\nq\"b\"" := by decide +kernel
  have hplace : ((Scanner.ofString "a é\"p\nq\"b\"").take 2).2.cursor.location = ⟨1, 4⟩ := by
    decide +kernel
  obtain ⟨-, hdrain⟩ := scanner_resumes_as_fresh "a é\"p\nq\"b\"" 2 hpulled
  rw [hleft, hplace] at hdrain
  exact ⟨hpulled, hdrain, by decide +kernel⟩

end LoxLex
