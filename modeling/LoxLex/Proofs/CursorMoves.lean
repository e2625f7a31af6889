import LoxLex.Cursor
import Mathlib.Data.List.Induction
import Mathlib.Tactic.Lemma

set_option relaxedAutoImplicit false
set_option autoImplicit false

/-!
# What the moves of a cursor do

A cursor that has passed a text stands behind it: the text joins what is consumed, the byte offset
grows by its bytes, and the location is the one after it. Every move of a cursor is of this form,
so a chain of moves is described by the text that it passes.

## Main definitions

* `LoxLex.byteLength` — the number of UTF-8 bytes of a text.
* `LoxLex.Cursor.past` — the cursor behind a text.

## Main results

* `LoxLex.Cursor.passWhile_eq_of_run` — a run of moves passes the longest run of characters.
* `LoxLex.Cursor.textSince_past` — the text since an earlier offset is the text passed since.
-/

namespace LoxLex

/-- The number of bytes of a text in UTF-8. -/
def byteLength : List Char → Nat
  | [] => 0
  | ch :: text => ch.utf8Size + byteLength text

/-- The bytes of two texts add up. -/
lemma byteLength_append (a b : List Char) : byteLength (a ++ b) = byteLength a + byteLength b := by
  induction a with
  | nil => simp [byteLength]
  | cons ch a ih =>
    rw [List.cons_append, byteLength, byteLength, ih]
    omega

namespace Cursor

/-- The cursor behind `text`, with `rest` still ahead. -/
def past (c : Cursor) (text rest : List Char) : Cursor :=
  ⟨text.reverse ++ c.consumed, rest, c.offset + byteLength text, c.location.after text⟩

@[simp] lemma past_rest (c : Cursor) (text rest : List Char) : (c.past text rest).rest = rest := rfl

@[simp] lemma past_location (c : Cursor) (text rest : List Char) :
    (c.past text rest).location = c.location.after text := rfl

@[simp] lemma past_offset (c : Cursor) (text rest : List Char) :
    (c.past text rest).offset = c.offset + byteLength text := rfl

/-- Behind no text at all a cursor stands where it stood. -/
lemma past_nil (c : Cursor) : c.past [] c.rest = c := rfl

/-- A text may be passed in two parts. -/
lemma past_past (c : Cursor) (a b r s : List Char) :
    (c.past a r).past b s = c.past (a ++ b) s := by
  simp [past, byteLength_append, Nat.add_assoc]

/-! ## Single moves -/

/-- At the end no character can be passed. -/
lemma next?_of_nil {c : Cursor} (h : c.rest = []) : c.next? = none := by
  simp [next?, h]

/-- The next character is passed, whatever it is. -/
lemma next?_of_cons {c : Cursor} {ch : Char} {rest : List Char} (h : c.rest = ch :: rest) :
    c.next? = some (ch, c.past [ch] rest) := by
  simp [next?, h, past, byteLength]

/-- A conditional move passes the next character if it satisfies the condition. -/
lemma nextIf?_of_cons {p : Char → Bool} {c : Cursor} {ch : Char} {rest : List Char}
    (h : c.rest = ch :: rest) :
    c.nextIf? p = if p ch then some (ch, c.past [ch] rest) else none := by
  simp [nextIf?, head?, h, next?_of_cons h]

/-- At the end no conditional move succeeds. -/
lemma nextIf?_of_nil {p : Char → Bool} {c : Cursor} (h : c.rest = []) : c.nextIf? p = none := by
  simp [nextIf?, head?, h]

/-- A conditional move fails where no character that satisfies the condition comes next. -/
lemma nextIf?_of_stop {p : Char → Bool} {c : Cursor}
    (h : ∀ ch, c.rest.head? = some ch → p ch = false) : c.nextIf? p = none := by
  cases hc : c.rest with
  | nil => exact nextIf?_of_nil hc
  | cons ch rest => simp [nextIf?_of_cons hc, h ch (by rw [hc]; rfl)]

/-- A character that is the expected one is passed. -/
lemma accept_of_cons {c : Cursor} {ch : Char} {rest : List Char} (h : c.rest = ch :: rest) :
    c.accept ch = (true, c.past [ch] rest) := by
  simp [accept, nextIf?_of_cons h]

/-- Where a text does not begin with a character, the first one is not the expected one. -/
lemma beq_eq_false_of_head?_ne {text : List Char} {ch : Char} (h : text.head? ≠ some ch) :
    ∀ other, text.head? = some other → (other == ch) = false :=
  fun _ hother => beq_false_of_ne fun heq => h (heq ▸ hother)

/-- A cursor before anything else than the expected character stays where it is. -/
lemma accept_of_ne {c : Cursor} {ch : Char} (h : c.rest.head? ≠ some ch) :
    c.accept ch = (false, c) := by
  simp [accept, nextIf?_of_stop (beq_eq_false_of_head?_ne h)]

/-! ## Runs of moves -/

/-- Nothing is taken off a text whose first character fails the condition. -/
lemma takeWhile_of_stop {p : Char → Bool} {rest : List Char}
    (h : ∀ ch, rest.head? = some ch → p ch = false) :
    rest.takeWhile p = [] ∧ rest.dropWhile p = rest := by
  cases rest with
  | nil => exact ⟨rfl, rfl⟩
  | cons ch rest => simp [h ch rfl]

/-- A run of moves passes the longest run of characters that satisfy the condition, and counts
them.

**Proof sketch.** Induction along the moves. A move that succeeds puts its character in front of
the run that is left; one that fails finds the run empty. -/
lemma passWhileFrom_eq (p : Char → Bool) (n : Nat) (c : Cursor) :
    passWhileFrom p n c =
      (n + (c.rest.takeWhile p).length, c.past (c.rest.takeWhile p) (c.rest.dropWhile p)) := by
  fun_induction passWhileFrom p n c with
  | case1 n c ch d h ih =>
    cases hc : c.rest with
    | nil => rw [nextIf?_of_nil hc] at h; cases h
    | cons first rest =>
      rw [nextIf?_of_cons hc] at h
      split at h
      · next hp =>
        obtain ⟨rfl, rfl⟩ : first = ch ∧ c.past [first] rest = d := by simpa using h
        rw [ih, past_past]
        simp [hp]
        omega
      · cases h
  | case2 n c h =>
    have hstop : ∀ ch, c.rest.head? = some ch → p ch = false := by
      intro ch hch
      obtain ⟨rest, hc⟩ := List.head?_eq_some_iff.1 hch
      simpa [nextIf?_of_cons hc] using h
    rw [(takeWhile_of_stop hstop).1, (takeWhile_of_stop hstop).2, past_nil]
    rfl

/-- A run of moves passes the longest run of characters that satisfy the condition. -/
lemma passWhile_eq (p : Char → Bool) (c : Cursor) :
    c.passWhile p =
      ((c.rest.takeWhile p).length, c.past (c.rest.takeWhile p) (c.rest.dropWhile p)) := by
  rw [passWhile, passWhileFrom_eq, Nat.zero_add]

/-- The run is known from its characters and from what stops it. -/
lemma passWhile_eq_of_run {p : Char → Bool} {c : Cursor} {run rest : List Char}
    (h : c.rest = run ++ rest) (hrun : ∀ ch ∈ run, p ch = true)
    (hstop : ∀ ch, rest.head? = some ch → p ch = false) :
    c.passWhile p = (run.length, c.past run rest) := by
  rw [passWhile_eq, h, List.takeWhile_append_of_pos hrun, List.dropWhile_append_of_pos hrun,
    (takeWhile_of_stop hstop).1, (takeWhile_of_stop hstop).2, List.append_nil]

/-- The cursor behind a run is known from its characters and from what stops it. -/
lemma passWhile_of_run {p : Char → Bool} {c : Cursor} {run rest : List Char}
    (h : c.rest = run ++ rest) (hrun : ∀ ch ∈ run, p ch = true)
    (hstop : ∀ ch, rest.head? = some ch → p ch = false) :
    (c.passWhile p).2 = c.past run rest := by
  rw [passWhile_eq_of_run h hrun hstop]

/-! ## Texts between two places -/

/-- The bytes of a text, taken off backwards, give the text.

**Proof sketch.** Induction on the text from its end, which is the side that bytes are taken off
first. -/
lemma takeBytes_byteLength (text before taken : List Char) :
    takeBytes (byteLength text) (text.reverse ++ before) taken = some (text ++ taken) := by
  induction text using List.reverseRecOn generalizing taken with
  | nil => simp [byteLength, takeBytes]
  | append_singleton text ch ih =>
    obtain ⟨k, hk⟩ : ∃ k, byteLength text + ch.utf8Size = k + 1 :=
      ⟨byteLength text + ch.utf8Size - 1, by have := ch.utf8Size_pos; omega⟩
    have hsize : byteLength (text ++ [ch]) = k + 1 := by
      rw [byteLength_append, ← hk]
      simp [byteLength]
    have hleft : k + 1 - ch.utf8Size = byteLength text := by omega
    rw [hsize, List.reverse_append, List.reverse_singleton, List.singleton_append,
      List.cons_append, takeBytes, if_pos (by omega), hleft, ih, List.append_assoc,
      List.singleton_append]

/-- What is taken off a text is the end of it, and it has as many bytes as are taken. -/
lemma exists_append_of_takeBytes {n : Nat} {text taken cut : List Char}
    (h : takeBytes n text taken = some cut) :
    ∃ before last, text = last.reverse ++ before ∧ cut = last ++ taken ∧ byteLength last = n := by
  fun_induction takeBytes n text taken with
  | case1 text taken =>
    obtain rfl := Option.some.inj h
    exact ⟨text, [], rfl, rfl, rfl⟩
  | case2 => cases h
  | case3 n ch text taken hfit ih =>
    obtain ⟨before, last, rfl, rfl, hsize⟩ := ih h
    refine ⟨before, last ++ [ch], by simp, by simp, ?_⟩
    rw [byteLength_append, hsize]
    simp only [byteLength]
    omega
  | case4 => cases h

/-- The text since an earlier place is there, and it is the text passed since. -/
lemma textSince?_past (c : Cursor) (text rest : List Char) :
    (c.past text rest).textSince? c.offset = some text := by
  rw [textSince?, past_offset, if_pos (Nat.le_add_right _ _), Nat.add_sub_cancel_left]
  exact (takeBytes_byteLength text c.consumed []).trans (by rw [List.append_nil])

/-- Where the text since an offset is there, it is the end of what is consumed, and the offset is
where it begins. -/
lemma exists_append_of_textSince? {c : Cursor} {start : Nat} {text : List Char}
    (h : c.textSince? start = some text) :
    ∃ before, c.consumed = text.reverse ++ before ∧ start + byteLength text = c.offset := by
  unfold textSince? at h
  split at h
  · next hle =>
    obtain ⟨before, last, hconsumed, rfl, hsize⟩ := exists_append_of_takeBytes h
    rw [List.append_nil]
    exact ⟨before, hconsumed, by omega⟩
  · cases h

/-- The text since an earlier place is the text passed since. -/
lemma textSince_past (c : Cursor) (text rest : List Char) :
    (c.past text rest).textSince c.offset = text := by
  rw [textSince, textSince?_past, Option.getD_some]

end Cursor

end LoxLex
