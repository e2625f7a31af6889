import LoxLex.CursorProgram
import LoxLex.Proofs.CursorRefinement
import LoxLex.Proofs.CutSafety

set_option relaxedAutoImplicit false
set_option autoImplicit false

/-!
# Programs do not tell cursors apart

A program sees of a cursor what operations give back, its offset and its location. If two cursors of
whatever kinds are related in such a way that all of this is the same and operations keep the
relation, then every program has the same result on both. On a cursor that keeps the parts of a text
the program for the scan finds the items of the text, step by step.

## Main definitions

* `LoxLex.Indistinguishable` — a relation of cursors that cannot be told apart.
* `LoxLex.SamePlace` — a cursor that keeps an offset, and one that keeps the parts of the text.
* `LoxLex.CursorProgram.stepOf`, `LoxLex.CursorProgram.foundOf` — what a program finds, as a step,
  and a step as what is found.

## Main results

* `LoxLex.Indistinguishable.run` — programs on cursors that cannot be told apart.
* `LoxLex.CursorProgram.run_item?` — the program for a step takes the step.
* `LoxLex.CursorProgram.run_scan` — the program for the scan gives the scan.
-/

namespace LoxLex

/-! ## Cursors that cannot be told apart -/

/-- A relation of cursors of two kinds that no operation and no look can tell apart. -/
structure Indistinguishable {κ κ' : Type} [TextReader κ] [TextReader κ'] (R : κ → κ' → Prop) :
    Prop where
  /-- They stand at the same byte offset. -/
  offset {c : κ} {c' : κ'} : R c c' → TextReader.offset c = TextReader.offset c'
  /-- They stand at the same location. -/
  location {c : κ} {c' : κ'} : R c c' → TextReader.location c = TextReader.location c'
  /-- Every operation gives back the same, and leaves cursors of this relation. -/
  perform {c : κ} {c' : κ'} : R c c' → ∀ op,
    (TextReader.perform c op).1 = (TextReader.perform c' op).1 ∧
      R (TextReader.perform c op).2 (TextReader.perform c' op).2

/-- Programs have the same result on them, and leave cursors of the relation.

**Proof sketch.** Induction on the program. What it does next depends only on what it gets. -/
lemma Indistinguishable.run {κ κ' α : Type} [TextReader κ] [TextReader κ'] {R : κ → κ' → Prop}
    (h : Indistinguishable R) (program : CursorProgram α) {c : κ} {c' : κ'} (hc : R c c') :
    (program.run c).1 = (program.run c').1 ∧ R (program.run c).2 (program.run c').2 := by
  induction program generalizing c c' with
  | done result => exact ⟨rfl, hc⟩
  | ask op next ih =>
    obtain ⟨hreply, hmoved⟩ := h.perform hc op
    rw [CursorProgram.run_ask, CursorProgram.run_ask, hreply]
    exact ih _ hmoved
  | look next ih =>
    rw [CursorProgram.run_look, CursorProgram.run_look, h.offset hc, h.location hc]
    exact ih _ _ hc

/-- A cursor that keeps a byte offset and one that keeps the parts of a text, at the same place. -/
def SamePlace (c : ByteCursor) (c' : Cursor) : Prop :=
  ∃ source consumed ahead, source.toList = consumed ++ ahead ∧
    c = ByteCursor.behind source consumed ∧ c' = Cursor.behind consumed ahead

/-- They cannot be told apart. -/
lemma indistinguishable_samePlace : Indistinguishable SamePlace where
  offset := by
    rintro _ _ ⟨source, consumed, ahead, -, rfl, rfl⟩
    rfl
  location := by
    rintro _ _ ⟨source, consumed, ahead, -, rfl, rfl⟩
    rfl
  perform := by
    rintro _ _ ⟨source, consumed, ahead, hsource, rfl, rfl⟩ op
    obtain ⟨reply, passed, hop⟩ := CursorOp.exists_outcome consumed ahead op
    obtain ⟨rest, rfl⟩ := hop.exists_append
    have hbytes := ByteCursor.perform_behind hsource hop
    have hparts := Cursor.perform_behind hop
    refine ⟨(congrArg Prod.fst hbytes).trans (congrArg Prod.fst hparts).symm,
      source, consumed ++ passed, rest, ?_, congrArg Prod.snd hbytes, ?_⟩
    · rw [hsource, List.append_assoc]
    · rw [List.drop_left] at hparts
      exact congrArg Prod.snd hparts

/-- The cursors at the start of a text are at the same place. -/
lemma samePlace_ofString (source : String) :
    SamePlace (.ofString source) (.ofString source) :=
  ⟨source, [], source.toList, rfl, rfl, rfl⟩

/-! ## The scan on a cursor that keeps the parts of a text -/

namespace CursorProgram

section Operations

variable (c : Cursor)

/-- Looks leave the cursor where it is. -/
lemma run_head : head.run c = (c.head?, c) := rfl

/-- So do looks at the second character. -/
lemma run_second : second.run c = (c.second?, c) := rfl

/-- A run of moves leaves the cursor that it leads to. -/
lemma run_passWhile (p : Char → Bool) : (passWhile p).run c = ((), (c.passWhile p).2) := rfl

/-- Cuts leave the cursor where it is. -/
lemma run_textSince (start : Nat) :
    (textSince start).run c = (String.ofList (c.textSince start), c) := rfl

/-- The offset is that of the cursor. -/
lemma run_offset : offset.run c = (c.offset, c) := rfl

/-- So is the location. -/
lemma run_location : location.run c = (c.location, c) := rfl

variable {c}

/-- A move that fails leaves the cursor where it is. -/
lemma run_next_of_none (h : c.next? = none) : next.run c = (none, c) := by
  show ((c.perform .next).1.char?, (c.perform .next).2) = _
  simp [Cursor.perform, h, CursorReply.ofMove, CursorReply.char?]

/-- A move that does not fail leads to the cursor behind the character. -/
lemma run_next_of_some {d : Cursor} {ch : Char} (h : c.next? = some (ch, d)) :
    next.run c = (some ch, d) := by
  show ((c.perform .next).1.char?, (c.perform .next).2) = _
  simp [Cursor.perform, h, CursorReply.ofMove, CursorReply.char?]

/-- So does an attempt to match. -/
lemma run_accept_of {d : Cursor} {ch : Char} {matched : Bool} (h : c.accept ch = (matched, d)) :
    (accept ch).run c = (matched, d) := h

end Operations

/-- What is found for the kind of a lexeme, as a step. -/
def stepOf : Option (Except LexError Kind) × Cursor → Step
  | (none, after) => .skip after
  | (some (.ok kind), after) => .lexeme kind after
  | (some (.error error), after) => .fault error after

/-- The rest of a string. -/
lemma stepOf_stringKind (start : Location) (c : Cursor) :
    stepOf (((stringKind start).run c).map some id) = c.stringLexeme start := by
  obtain ⟨closed, after, haccept⟩ :
      ∃ m d, (c.passWhile (· != '\x22')).2.accept '\x22' = (m, d) := ⟨_, _, rfl⟩
  simp only [stringKind, run_bind, run_offset, run_passWhile, run_textSince,
    run_accept_of haccept, Cursor.stringLexeme, haccept]
  cases closed <;> rfl

/-- The part of a number behind its first digits. -/
lemma run_passFraction (c : Cursor) :
    (passFraction.run c).2 = if c.head? = some '.' ∧ c.second?.any isDigit then
        match c.next? with
        | some (_, fraction) => (fraction.passWhile isDigit).2
        | none => c
      else c := by
  rw [passFraction, run_bind, run_head]
  by_cases hhead : c.head? = some '.'
  · rw [if_pos hhead, run_bind, run_second]
    by_cases hsecond : c.second?.any isDigit = true
    · obtain ⟨rest, hrest⟩ := List.head?_eq_some_iff.1 hhead
      have hpoint := Cursor.next?_of_cons hrest
      rw [if_pos hsecond, if_pos ⟨hhead, hsecond⟩, run_bind, run_next_of_some hpoint, hpoint]
      rfl
    · rw [if_neg hsecond, if_neg fun hboth => hsecond hboth.2]
      rfl
  · rw [if_neg hhead, if_neg fun hboth => hhead hboth.1]
    rfl

/-- The rest of a number. -/
lemma run_numberKind (start : Nat) (c : Cursor) :
    c.numberLexeme start =
      .lexeme ((numberKind start).run c).1 ((numberKind start).run c).2 := by
  have hafter : c.afterNumber = (passFraction.run (c.passWhile isDigit).2).2 :=
    (run_passFraction _).symm
  simp only [numberKind, run_bind, run_passWhile, run_textSince, run_pure, Cursor.numberLexeme,
    hafter, String.toList_ofList]

/-- The rest of a word. -/
lemma run_wordKind (start : Nat) (c : Cursor) :
    c.wordLexeme start = .lexeme ((wordKind start).run c).1 ((wordKind start).run c).2 := by
  simp only [wordKind, run_bind, run_passWhile, run_textSince, Cursor.wordLexeme]
  cases Keyword.ofSpelling? (String.ofList ((c.passWhile isWordPart).2.textSince start)) <;> rfl

/-- The rest of an operator. -/
lemma run_operatorKind (op : Operator) (c : Cursor) :
    c.operatorLexeme op =
      .lexeme ((operatorKind op).run c).1 ((operatorKind op).run c).2 := by
  rw [operatorKind, Cursor.operatorLexeme]
  cases op.withEqual? with
  | none => rfl
  | some longer =>
    obtain ⟨equal, after, haccept⟩ : ∃ m d, c.accept '=' = (m, d) := ⟨_, _, rfl⟩
    simp only [run_bind, run_accept_of haccept, haccept]
    cases equal <;> rfl

/-- What the first character of a step leads to.

**Proof sketch.** By the branches of the step. The only one that the program takes in another way is
the one for a slash: its comments are found by an attempt to match. -/
lemma stepOf_kind? {c d : Cursor} {ch : Char} (h : c.next? = some (ch, d)) :
    stepOf ((kind? ch c.offset c.location).run d) = c.step := by
  rw [kind?, Cursor.step, h]
  simp only
  by_cases hblank : isBlank ch = true
  · rw [if_pos hblank, if_pos hblank]
    rfl
  rw [if_neg hblank, if_neg hblank]
  by_cases hquote : ch = '\x22'
  · rw [if_pos hquote, if_pos hquote, ← stepOf_stringKind, run_bind]
    rfl
  rw [if_neg hquote, if_neg hquote]
  by_cases hdigit : isDigit ch = true
  · rw [if_pos hdigit, if_pos hdigit, run_numberKind, run_bind]
    rfl
  rw [if_neg hdigit, if_neg hdigit]
  by_cases hletter : isWordStart ch = true
  · rw [if_pos hletter, if_pos hletter, run_wordKind, run_bind]
    rfl
  rw [if_neg hletter, if_neg hletter]
  by_cases hslash : ch = '/'
  · rw [if_pos hslash, run_bind]
    by_cases hhead : d.head? = some '/'
    · obtain ⟨body, hbody⟩ := List.head?_eq_some_iff.1 hhead
      have hcomment : ch = '/' ∧ d.head? = some '/' := ⟨hslash, hhead⟩
      rw [if_pos hcomment, run_accept_of (Cursor.accept_of_cons hbody),
        Cursor.passWhile_of_pass hbody (by decide)]
      rfl
    · have hoperator : ¬ (ch = '/' ∧ d.head? = some '/') := fun hboth => hhead hboth.2
      rw [if_neg hoperator, run_accept_of (Cursor.accept_of_ne hhead), hslash]
      rfl
  · rw [if_neg hslash, if_neg fun hboth => hslash hboth.1]
    cases Operator.ofChar? ch with
    | some op =>
      simp only [run_operatorKind, run_bind]
      rfl
    | none => rfl

/-- What is found by a step, and the cursor behind it. -/
def foundOf (c : Cursor) : Step → Option Item × Cursor
  | .skip after => (none, after)
  | .lexeme kind after => (some (.token (c.tokenTo kind after)), after)
  | .fault error after => (some (.error error), after)
  | .finish => (some (.token (c.tokenTo .endOfInput c)), c)

/-- The program for a step finds what the step finds. -/
lemma run_item? (c : Cursor) : item?.run c = foundOf c c.step := by
  rw [item?, run_bind, run_offset, run_bind, run_location, run_bind]
  cases hnext : c.next? with
  | none =>
    rw [run_next_of_none hnext, Cursor.step, hnext]
    rfl
  | some passed =>
    obtain ⟨ch, d⟩ := passed
    rw [run_next_of_some hnext, run_bind, ← stepOf_kind? hnext]
    obtain ⟨found, after⟩ := (kind? ch c.offset c.location).run d
    rcases found with _ | _ | _ <;> rfl

/-- The first call of a scanner, and the others. -/
lemma take_succ (m : Nat) (c : Cursor) :
    (Scanner.take (m + 1) ⟨c, false⟩).1 =
      c.nextItem.1 :: (Scanner.take m ⟨c.nextItem.2, c.nextItem.1.isEnd⟩).1 := rfl

/-- What is found is the next item. -/
lemma nextItem_of_found {c d : Cursor} {item : Item} (h : foundOf c c.step = (some item, d)) :
    c.nextItem = (item, d) := by
  rw [Cursor.nextItem]
  split
  · next hstep =>
    rw [hstep] at h
    cases h
  all_goals
    next hstep =>
      rw [hstep] at h
      cases h
      rfl

/-- Where nothing is found, something was passed over. -/
lemma step_of_found_none {c d : Cursor} (h : foundOf c c.step = (none, d)) : c.step = .skip d := by
  cases hstep : c.step with
  | skip after =>
    rw [hstep] at h
    cases h
    rfl
  | lexeme | fault | finish =>
    rw [hstep] at h
    cases h

/-- An item that is not the end uses up some of the text. -/
lemma rest_length_lt_of_found {c d : Cursor} {item : Item}
    (h : foundOf c c.step = (some item, d)) (hend : item.isEnd = false) :
    d.rest.length < c.rest.length := by
  refine Cursor.rest_length_lt_of_step ?_
  cases hstep : c.step with
  | skip after =>
    rw [hstep] at h
    cases h
  | lexeme kind after | fault error after =>
    rw [hstep] at h
    cases h
    rfl
  | finish =>
    rw [hstep] at h
    cases h
    cases hend

/-- The program for several steps gives the items of as many calls of a scanner, if there are
enough of both.

**Proof sketch.** Induction on the steps. One that finds nothing is taken within the same call. -/
lemma run_items {n m : Nat} {c : Cursor} (hn : c.rest.length < n) (hm : c.rest.length < m) :
    ((items n).run c).1 = (Scanner.take m ⟨c, false⟩).1 := by
  induction n generalizing c m with
  | zero => omega
  | succ n ih =>
    obtain ⟨m, rfl⟩ : ∃ k, m = k + 1 := ⟨m - 1, by omega⟩
    rw [items, run_bind, run_item?]
    rcases hfound : foundOf c c.step with ⟨_ | item, d⟩
    · have hstep := step_of_found_none hfound
      have hlt : d.rest.length < c.rest.length := Cursor.rest_length_lt_of_step (by rw [hstep]; rfl)
      show ((items n).run d).1 = _
      rw [ih (m := m + 1) (by omega) (by omega), take_succ, take_succ,
        Cursor.nextItem_of_skip hstep]
    · rw [take_succ, nextItem_of_found hfound]
      cases hend : item.isEnd with
      | true =>
        simp only [hend, if_true, run_pure]
        cases m <;> rfl
      | false =>
        have hlt := rest_length_lt_of_found hfound hend
        simp only [hend, Bool.false_eq_true, if_false, run_bind, run_pure]
        rw [ih (m := m) (by omega) (by omega)]

/-- The scan is a program over a cursor. -/
theorem run_scan (source : String) :
    ((scan source).run (Cursor.ofString source)).1 = LoxLex.scan source := by
  have hitems : ((items (source.toList.length + 1)).run (Cursor.ofString source)).1 =
      LoxLex.items source := run_items (Nat.lt_succ_self _) (Nat.lt_succ_self _)
  rw [scan, run_bind, hitems]
  rfl

end CursorProgram

end LoxLex
