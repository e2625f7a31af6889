import LoxLex.Proofs.CursorPrograms

set_option relaxedAutoImplicit false
set_option autoImplicit false

/-!
# Positions in words are exact

Offsets are bounded by the length of the text, lines and columns by the offset: a newline adds one
to the line and takes the column back to its start, any other character adds one to the column, and
each of them adds at least one byte. A text has less than `2 ^ 63` bytes, so none of these numbers
ever comes near the end of a word, nor does a count of characters. Whatever is done on a cursor that
keeps its position in words, no sum is too large, and all of it is as in exact numbers.

## Main definitions

* `LoxLex.WordCursor.Bounded` — the bounds of a position.
* `LoxLex.WordCursor.SameMove` — a move with the same result in words and in exact numbers.

## Main results

* `LoxLex.WordCursor.Bounded.pass`, `LoxLex.WordCursor.Bounded.numbers_pass` — one character.
* `LoxLex.WordCursor.Bounded.perform`, `LoxLex.WordCursor.Bounded.performAll` — operations.
* `LoxLex.WordCursor.overflowed_perform` — a sum that is too large is not forgotten.
* `LoxLex.positions_in_words_are_exact` — all operations, programs and scans, from the start of a
  text.
-/

namespace LoxLex

/-! ## Sums of words -/

/-- The number of words. -/
private lemma size_eq : UInt64.size = 0x10000000000000000 := rfl

/-- A sum that a word can hold is exact. -/
private lemma toNat_add_of_lt {a b : UInt64} (h : a.toNat + b.toNat < UInt64.size) :
    (a + b).toNat = a.toNat + b.toNat := by
  rw [UInt64.toNat_add]
  exact Nat.mod_eq_of_lt h

/-- Where a word can hold the sum, nothing is taken off it. -/
lemma wrappingAdd_of_lt {a b : UInt64} (h : a.toNat + b.toNat < UInt64.size) :
    (wrappingAdd a b).value.toNat = a.toNat + b.toNat ∧ (wrappingAdd a b).exceeds = false :=
  ⟨toNat_add_of_lt h, decide_eq_false (Nat.not_le.2 h)⟩

/-- Nor is it cut off. -/
lemma saturatingAdd_of_lt {a b : UInt64} (h : a.toNat + b.toNat < UInt64.size) :
    (saturatingAdd a b).value.toNat = a.toNat + b.toNat ∧ (saturatingAdd a b).exceeds = false := by
  rw [saturatingAdd, if_neg (Nat.not_le.2 h)]
  exact ⟨toNat_add_of_lt h, rfl⟩

/-- A word can hold the number of bytes of a character. -/
lemma toNat_utf8Size (ch : Char) : (UInt64.ofNat ch.utf8Size).toNat = ch.utf8Size := by
  have hfour := ch.utf8Size_le_four
  exact UInt64.toNat_ofNat_of_lt' (by rw [size_eq]; omega)

/-- A character ahead of a cursor ends within the text. -/
lemma ByteCursor.offset_add_le_of_head? {c : ByteCursor} {ch : Char} (h : c.head? = some ch) :
    c.offset + ch.utf8Size ≤ c.source.utf8ByteSize := by
  unfold head? rest at h
  cases hcut : textBetween? c.source c.offset c.source.utf8ByteSize with
  | none =>
    rw [hcut] at h
    cases h
  | some text =>
    rw [hcut] at h
    obtain ⟨others, hothers⟩ := List.head?_eq_some_iff.1 h
    have hsize := (utf8ByteSize_of_textBetween? hcut).1
    have hbytes : text.utf8ByteSize = ch.utf8Size + byteLength others := by
      rw [← String.ofList_toList (s := text), utf8ByteSize_ofList]
      exact congrArg byteLength hothers
    omega

/-- A character takes a location away from the start by one at most, and never before it. -/
lemma Location.step_bounds (l : Location) (ch : Char) (hline : 1 ≤ l.line) (hcol : 1 ≤ l.col) :
    1 ≤ (l.step ch).line ∧ 1 ≤ (l.step ch).col ∧
      ((l.step ch).line - 1) + ((l.step ch).col - 1) ≤ (l.line - 1) + (l.col - 1) + 1 := by
  rw [Location.step]
  split
  · exact ⟨Nat.le_add_left 1 l.line, Nat.le_refl 1, by simp only; omega⟩
  · exact ⟨hline, Nat.le_add_left 1 l.col, by simp only; omega⟩

namespace WordCursor

/-! ## The invariant -/

/-- The bounds of a position, and that no sum on the way to it was too large: the offset is bounded
by the text, and the line and the column by the offset. -/
structure Bounded (c : WordCursor) : Prop where
  offset_le : c.offset.toNat ≤ c.source.utf8ByteSize
  one_le_line : 1 ≤ c.line.toNat
  one_le_col : 1 ≤ c.col.toNat
  location_le : (c.line.toNat - 1) + (c.col.toNat - 1) ≤ c.offset.toNat
  exact : c.overflowed = false

/-- The start of a text is within its bounds. -/
lemma bounded_ofString {source : String} (h : source.utf8ByteSize ≤ maxTextSize) :
    (ofString source h).Bounded :=
  ⟨Nat.zero_le _, Nat.le_refl 1, Nat.le_refl 1, Nat.le_refl 0, rfl⟩

variable {c d : WordCursor}

/-- Nothing that a move adds is too large for a word. -/
lemma Bounded.sums_lt (h : c.Bounded) {ch : Char} (hch : c.head? = some ch) :
    c.offset.toNat + (UInt64.ofNat ch.utf8Size).toNat < UInt64.size ∧
      c.line.toNat + (1 : UInt64).toNat < UInt64.size ∧
      c.col.toNat + (1 : UInt64).toNat < UInt64.size := by
  have hend : c.offset.toNat + ch.utf8Size ≤ c.source.utf8ByteSize :=
    ByteCursor.offset_add_le_of_head? hch
  have hsize := c.size_le
  have hwidth := ch.utf8Size_le_four
  have hlocation := h.location_le
  rw [maxTextSize_eq] at hsize
  rw [toNat_utf8Size, size_eq, UInt64.toNat_one]
  omega

/-- Behind the next character a position within its bounds is moved as in exact numbers. -/
lemma Bounded.numbers_pass (h : c.Bounded) {ch : Char} (hch : c.head? = some ch) :
    (c.pass ch).numbers =
        ⟨c.source, c.offset.toNat + ch.utf8Size, c.numbers.location.step ch⟩ ∧
      (c.pass ch).overflowed = false := by
  obtain ⟨hoffset, hline, hcol⟩ := h.sums_lt hch
  obtain ⟨hoffset, hnear⟩ := wrappingAdd_of_lt hoffset
  obtain ⟨hline, hhigh⟩ := wrappingAdd_of_lt hline
  obtain ⟨hcol, hnarrow⟩ := wrappingAdd_of_lt hcol
  rw [toNat_utf8Size] at hoffset
  rw [UInt64.toNat_one] at hline hcol
  unfold WordCursor.pass numbers Location.step
  by_cases hnewline : ch = '\n'
  · simp only [if_pos hnewline, hoffset, hline, UInt64.toNat_one, h.exact, hnear, hhigh,
      Bool.or_false, and_self]
  · simp only [if_neg hnewline, hoffset, hcol, h.exact, hnear, hnarrow, Bool.or_false, and_self]

/-- And it stays within its bounds. -/
lemma Bounded.pass (h : c.Bounded) {ch : Char} (hch : c.head? = some ch) : (c.pass ch).Bounded := by
  obtain ⟨hnumbers, hexact⟩ := h.numbers_pass hch
  have hend : c.offset.toNat + ch.utf8Size ≤ c.source.utf8ByteSize :=
    ByteCursor.offset_add_le_of_head? hch
  have hpos := ch.utf8Size_pos
  have hoffset : (c.pass ch).offset.toNat = c.offset.toNat + ch.utf8Size :=
    congrArg ByteCursor.offset hnumbers
  have hline : (c.pass ch).line.toNat = (c.numbers.location.step ch).line :=
    congrArg (·.location.line) hnumbers
  have hcol : (c.pass ch).col.toNat = (c.numbers.location.step ch).col :=
    congrArg (·.location.col) hnumbers
  obtain ⟨-, hlow, hleft, hlocation, -⟩ := h
  obtain ⟨hlow, hleft, hfar⟩ := c.numbers.location.step_bounds ch hlow hleft
  refine ⟨by rw [pass_source]; omega, by omega, by omega, ?_, hexact⟩
  calc ((c.pass ch).line.toNat - 1) + ((c.pass ch).col.toNat - 1)
      = ((c.numbers.location.step ch).line - 1) + ((c.numbers.location.step ch).col - 1) := by
        rw [hline, hcol]
    _ ≤ (c.line.toNat - 1) + (c.col.toNat - 1) + 1 := hfar
    _ ≤ (c.pass ch).offset.toNat := by omega

/-! ## Moves -/

/-- A move from `c` that has the same result in words and in exact numbers: both fail, or both pass
the same character and lead to the same position, which is within its bounds. -/
inductive SameMove (c : WordCursor) : Option (Char × WordCursor) → Option (Char × ByteCursor) → Prop
  where
  | stay : SameMove c none none
  | pass {ch : Char} {d : WordCursor} (hd : d.Bounded) (hlt : c.offset.toNat < d.offset.toNat) :
    SameMove c (some (ch, d)) (some (ch, d.numbers))

/-- A move is the move in exact numbers. -/
lemma Bounded.next? (h : c.Bounded) : SameMove c c.next? c.numbers.next? := by
  have hsame : c.head? = c.numbers.head? := rfl
  rw [WordCursor.next?, ByteCursor.next?, hsame]
  cases hhead : c.numbers.head? with
  | none => exact .stay
  | some ch =>
    have hnumbers := (h.numbers_pass hhead).1
    have hoffset : (c.pass ch).offset.toNat = c.offset.toNat + ch.utf8Size :=
      congrArg ByteCursor.offset hnumbers
    have hpos := ch.utf8Size_pos
    have hpass : SameMove c (some (ch, c.pass ch)) (some (ch, (c.pass ch).numbers)) :=
      .pass (h.pass hhead) (by omega)
    rwa [hnumbers] at hpass

/-- So is a conditional move. -/
lemma Bounded.nextIf? (h : c.Bounded) (p : Char → Bool) :
    SameMove c (c.nextIf? p) (c.numbers.nextIf? p) := by
  have hsame : c.head? = c.numbers.head? := rfl
  rw [WordCursor.nextIf?, ByteCursor.nextIf?, hsame]
  cases c.numbers.head? with
  | none => exact .stay
  | some ch =>
    by_cases hp : p ch = true
    · simp only [if_pos hp]
      exact h.next?
    · simp only [if_neg hp]
      exact .stay

/-- A run of moves is the run in exact numbers, if the count is no larger than the offset.

**Proof sketch.** Induction on the run. Each move adds one to the count, and at least one to the
offset, which the text bounds. -/
lemma Bounded.passWhileFrom (h : c.Bounded) (p : Char → Bool) {n : UInt64}
    (hn : n.toNat ≤ c.offset.toNat) :
    c.numbers.passWhileFrom p n.toNat =
        ((WordCursor.passWhileFrom p n c).1.toNat, (WordCursor.passWhileFrom p n c).2.numbers) ∧
      (WordCursor.passWhileFrom p n c).2.Bounded := by
  fun_induction WordCursor.passWhileFrom p n c with
  | case1 n c ch d hnext count ih =>
    have hmove := h.nextIf? p
    rw [hnext] at hmove
    generalize hexact : c.numbers.nextIf? p = exact at hmove
    cases hmove with
    | pass hd hlt =>
      have hcount : n.toNat + (1 : UInt64).toNat < UInt64.size := by
        have hsize := d.size_le
        have hend := hd.offset_le
        rw [maxTextSize_eq] at hsize
        rw [UInt64.toNat_one, size_eq]
        omega
      obtain ⟨hvalue, hfits⟩ := saturatingAdd_of_lt hcount
      have hvalue : count.value.toNat = n.toNat + 1 := hvalue
      have hstays : { d with overflowed := d.overflowed || count.exceeds } = d := by
        rw [show count.exceeds = false from hfits, Bool.or_false]
      rw [hstays] at ih ⊢
      obtain ⟨hrun, hlast⟩ := ih hd (by omega)
      refine ⟨?_, hlast⟩
      rw [ByteCursor.passWhileFrom, ← hrun, hvalue]
      split <;> simp_all
  | case2 n c hnext =>
    have hmove := h.nextIf? p
    rw [hnext] at hmove
    generalize hexact : c.numbers.nextIf? p = exact at hmove
    cases hmove with
    | stay =>
      refine ⟨?_, h⟩
      rw [ByteCursor.passWhileFrom]
      split <;> simp_all

/-- An attempt to match is the attempt in exact numbers. -/
lemma Bounded.accept (h : c.Bounded) (ch : Char) :
    c.numbers.accept ch = ((WordCursor.accept ch c).1, (WordCursor.accept ch c).2.numbers) ∧
      (WordCursor.accept ch c).2.Bounded := by
  have hmove := h.nextIf? (· == ch)
  rw [WordCursor.accept, ByteCursor.accept]
  generalize c.nextIf? (· == ch) = moved at hmove ⊢
  generalize c.numbers.nextIf? (· == ch) = exact at hmove ⊢
  cases hmove with
  | stay => exact ⟨rfl, h⟩
  | pass hd => exact ⟨rfl, hd⟩

/-! ## Operations -/

/-- A move gives back the same as the move in exact numbers. -/
lemma SameMove.ofMove (h : c.Bounded) {moved : Option (Char × WordCursor)}
    {exact : Option (Char × ByteCursor)} (hmove : SameMove c moved exact) :
    CursorReply.ofMove c.numbers exact =
        ((CursorReply.ofMove c moved).1, (CursorReply.ofMove c moved).2.numbers) ∧
      (CursorReply.ofMove c moved).2.Bounded := by
  cases hmove with
  | stay => exact ⟨rfl, h⟩
  | pass hd => exact ⟨rfl, hd⟩

/-- An operation within the bounds is the operation in exact numbers, and stays within them. -/
lemma Bounded.perform (h : c.Bounded) (op : CursorOp) :
    c.numbers.perform op = ((c.perform op).1, (c.perform op).2.numbers) ∧
      (c.perform op).2.Bounded := by
  cases op with
  | head | second | atEnd | textSince => exact ⟨rfl, h⟩
  | next => exact h.next?.ofMove h
  | nextIf p => exact (h.nextIf? p).ofMove h
  | passWhile p =>
    obtain ⟨hrun, hd⟩ := h.passWhileFrom p (n := 0) (Nat.zero_le _)
    exact ⟨congrArg (Prod.map CursorReply.count id) hrun, hd⟩
  | accept ch =>
    obtain ⟨hmatch, hd⟩ := h.accept ch
    exact ⟨congrArg (Prod.map CursorReply.flag id) hmatch, hd⟩

/-- So are operations one after the other. -/
lemma Bounded.performAll (h : c.Bounded) (ops : List CursorOp) :
    c.numbers.performAll ops = ((c.performAll ops).1, (c.performAll ops).2.numbers) ∧
      (c.performAll ops).2.Bounded := by
  induction ops generalizing c with
  | nil => exact ⟨rfl, h⟩
  | cons op ops ih =>
    obtain ⟨hop, hd⟩ := h.perform op
    obtain ⟨hops, hlast⟩ := ih hd
    refine ⟨?_, hlast⟩
    rw [ByteCursor.performAll, hop]
    simp only [hops]
    rfl

/-! ## What is remembered -/

/-- A sum that was too large is remembered behind the next character. -/
lemma overflowed_pass (h : c.overflowed = true) (ch : Char) : (c.pass ch).overflowed = true := by
  unfold pass
  split <;> simp [h]

/-- So it is behind a move. -/
lemma overflowed_of_next? {ch : Char} (h : c.overflowed = true)
    (hd : c.next? = some (ch, d)) : d.overflowed = true := by
  unfold next? at hd
  split at hd
  · cases hd
  · cases hd
    exact overflowed_pass h _

/-- And behind a conditional move. -/
lemma overflowed_of_nextIf? {p : Char → Bool} {ch : Char} (h : c.overflowed = true)
    (hd : c.nextIf? p = some (ch, d)) : d.overflowed = true :=
  overflowed_of_next? h (next?_of_nextIf? hd)

/-- It is remembered behind a run of moves. -/
lemma overflowed_passWhileFrom (h : c.overflowed = true) (p : Char → Bool) (n : UInt64) :
    (passWhileFrom p n c).2.overflowed = true := by
  fun_induction passWhileFrom p n c with
  | case1 n c ch d hnext count ih => exact ih (by simp [overflowed_of_nextIf? h hnext])
  | case2 => exact h

/-- No operation forgets that a sum was too large. -/
theorem overflowed_perform (h : c.overflowed = true) (op : CursorOp) :
    (c.perform op).2.overflowed = true := by
  cases op with
  | head | second | atEnd | textSince => exact h
  | next =>
    rw [perform]
    cases hnext : c.next? with
    | none => exact h
    | some passed => exact overflowed_of_next? h hnext
  | nextIf p =>
    rw [perform]
    cases hnext : c.nextIf? p with
    | none => exact h
    | some passed => exact overflowed_of_nextIf? h hnext
  | passWhile p => exact overflowed_passWhileFrom h p 0
  | accept ch =>
    rw [perform, accept]
    split
    · next hnext => exact overflowed_of_nextIf? h hnext
    · exact h

/-! ## Programs -/

/-- A cursor within its bounds and the same position in exact numbers cannot be told apart. -/
lemma indistinguishable_numbers :
    Indistinguishable fun (w : WordCursor) (c : ByteCursor) => w.Bounded ∧ w.numbers = c where
  offset := by
    rintro w _ ⟨-, rfl⟩
    rfl
  location := by
    rintro w _ ⟨-, rfl⟩
    rfl
  perform := by
    rintro w _ ⟨h, rfl⟩ op
    obtain ⟨hop, hd⟩ := h.perform op
    exact ⟨(congrArg Prod.fst hop).symm, hd, (congrArg Prod.snd hop).symm⟩

/-- A program performs some sequence of operations. -/
lemma exists_performAll {α : Type} (program : CursorProgram α) (c : WordCursor) :
    ∃ ops, (program.run c).2 = (c.performAll ops).2 := by
  induction program generalizing c with
  | done result => exact ⟨[], rfl⟩
  | ask op next ih =>
    obtain ⟨ops, hops⟩ := ih (c.perform op).1 (c.perform op).2
    exact ⟨op :: ops, hops⟩
  | look next ih => exact ih _ _ c

end WordCursor

/-- Cursors of both kinds in exact numbers give back the same, and the text stays as it is. -/
lemma performAll_ofString (source : String) (ops : List CursorOp) :
    ((ByteCursor.ofString source).performAll ops).1 =
        ((Cursor.ofString source).performAll ops).1 ∧
      ((ByteCursor.ofString source).performAll ops).2.source = source := by
  obtain ⟨replies, consumed, ahead, hops⟩ := CursorOp.exists_outcomes [] source.toList ops
  have hbytes : (ByteCursor.ofString source).performAll ops =
      (replies, ByteCursor.behind source consumed) := ByteCursor.performAll_behind rfl hops
  have hparts : (Cursor.ofString source).performAll ops =
      (replies, Cursor.behind consumed ahead) := Cursor.performAll_behind hops
  rw [hbytes, hparts]
  exact ⟨rfl, rfl⟩

/-- **Positions in words are exact.** Take a text of at most `2 ^ 63 - 1` bytes, and a cursor at its
start that keeps its offset, its line and its column in words of 64 bits. Whatever operations are
performed on it, no sum is too large for a word, not even within a run of moves or for its count: a
cursor remembers it if one is, and neither an operation nor the rest of a run lets it forget. The
offset is at most the length of the text; line and column begin with one, and together they are
no further from their start than the offset is. So the sums of the next move are not too large
either. The operations give back the same as in exact numbers, and lead to the same position. Every
program over the cursor, whatever it does upon what it gets, performs some such sequence of
operations, and has the same result as on a cursor that keeps the parts of the text; and the scan is
a program.

**Proof sketch.** A position within its bounds is moved behind a character as in exact numbers, and
the bounds are kept: of line and column at most one grows, by one, and the offset grows by at least
one, within the text. A count of characters is at most the offset. By induction along a run of
moves, and then along operations, nothing else happens. -/
theorem positions_in_words_are_exact (source : String) (h : source.utf8ByteSize ≤ maxTextSize) :
    (∀ ops,
      let found := (WordCursor.ofString source h).performAll ops
      let exact := (ByteCursor.ofString source).performAll ops
      found.2.overflowed = false ∧
      found.2.offset.toNat ≤ source.utf8ByteSize ∧
      (found.2.line.toNat - 1) + (found.2.col.toNat - 1) ≤ found.2.offset.toNat ∧
      1 ≤ found.2.line.toNat ∧ 1 ≤ found.2.col.toNat ∧
      (∀ ch, found.2.head? = some ch →
        found.2.offset.toNat + ch.utf8Size < UInt64.size ∧
        found.2.line.toNat + 1 < UInt64.size ∧ found.2.col.toNat + 1 < UInt64.size) ∧
      found.1 = exact.1 ∧ found.2.numbers = exact.2 ∧
      found.1 = ((Cursor.ofString source).performAll ops).1) ∧
    (∀ (α : Type) (program : CursorProgram α),
      (program.run (WordCursor.ofString source h)).1 =
          (program.run (Cursor.ofString source)).1 ∧
        ∃ ops, (program.run (WordCursor.ofString source h)).2 =
          ((WordCursor.ofString source h).performAll ops).2) ∧
    ((CursorProgram.scan source).run (WordCursor.ofString source h)).1 = scan source ∧
    ∀ c : WordCursor, c.overflowed = true →
      (∀ op, (c.perform op).2.overflowed = true) ∧
        ∀ p n, (WordCursor.passWhileFrom p n c).2.overflowed = true := by
  have hstart := WordCursor.bounded_ofString h
  have hresult : ∀ (α : Type) (program : CursorProgram α),
      (program.run (WordCursor.ofString source h)).1 =
        (program.run (Cursor.ofString source)).1 := by
    intro α program
    have hwords := (WordCursor.indistinguishable_numbers.run program ⟨hstart, rfl⟩).1
    have hparts := (indistinguishable_samePlace.run program (samePlace_ofString source)).1
    exact hwords.trans hparts
  refine ⟨fun ops => ?_, fun α program => ⟨hresult α program,
    WordCursor.exists_performAll program _⟩, (hresult _ _).trans (CursorProgram.run_scan source),
    fun c hc => ⟨WordCursor.overflowed_perform hc, WordCursor.overflowed_passWhileFrom hc⟩⟩
  obtain ⟨hall, hbounded⟩ := hstart.performAll ops
  obtain ⟨hreplies, hsource⟩ := performAll_ofString source ops
  have hall : (ByteCursor.ofString source).performAll ops = _ := hall
  have htext : ((WordCursor.ofString source h).performAll ops).2.source = source := by
    rw [hall] at hsource
    exact hsource
  refine ⟨hbounded.exact, ?_, hbounded.location_le, hbounded.one_le_line, hbounded.one_le_col,
    fun ch hch => ?_, (congrArg Prod.fst hall).symm, (congrArg Prod.snd hall).symm,
    (congrArg Prod.fst hall).symm.trans hreplies⟩
  · have hle := hbounded.offset_le
    rwa [htext] at hle
  · have hsums := hbounded.sums_lt hch
    rwa [toNat_utf8Size] at hsums

/-- The cursor behind a newline that follows a character of two bytes. -/
theorem positions_in_words_are_exact_on_two_lines :
    "é\n1".utf8ByteSize ≤ maxTextSize ∧
      ((WordCursor.ofString "é\n1" (by decide)).performAll
        [.passWhile (· != '\n'), .next]).2.numbers = ⟨"é\n1", 3, ⟨2, 1⟩⟩ ∧
      ((CursorProgram.scan "é\n1").run (WordCursor.ofString "é\n1" (by decide))).1 =
        scan "é\n1" := by
  obtain ⟨hoperations, -, hscan, -⟩ := positions_in_words_are_exact "é\n1" (by decide)
  obtain ⟨-, -, -, -, -, -, -, hnumbers, -⟩ := hoperations [.passWhile (· != '\n'), .next]
  refine ⟨by decide, ?_, hscan⟩
  rw [hnumbers]
  decide +kernel

end LoxLex
