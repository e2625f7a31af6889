import LoxLex.CursorOperation
import LoxLex.Proofs.CursorMoves
import LoxLex.Proofs.LocationOrder

set_option relaxedAutoImplicit false
set_option autoImplicit false

/-!
# Cursors and the text they stand in

What an operation on a cursor does is said on the text alone, split at the place where the cursor
stands: what it gives back, and which characters it passes. A cursor that keeps a byte offset and
cuts what it reads out of the whole text does this, and so does a cursor that keeps the two parts.
The offset is always the number of bytes of what is passed, so no cut ever falls inside a character
unless the operation itself asks for one.

## Main definitions

* `LoxLex.CursorOp.Outcome` — what an operation gives back, and what it passes.
* `LoxLex.CursorOp.Outcomes` — the same for operations one after the other.
* `LoxLex.ByteCursor.behind`, `LoxLex.Cursor.behind` — the cursors at a split of the text.

## Main results

* `LoxLex.ByteCursor.perform_behind`, `LoxLex.Cursor.perform_behind` — one operation.
* `LoxLex.byteCursor_refines_text` — every sequence of operations, from the start of a text.
-/

namespace LoxLex

/-! ## Outcomes on a split text -/

/-- `Outcome consumed ahead op reply passed` says that between `consumed` and `ahead` the operation
`op` gives back `reply`, and that it passes the characters `passed` of `ahead`. -/
inductive CursorOp.Outcome (consumed ahead : List Char) :
    CursorOp → CursorReply → List Char → Prop
  /-- The next character is the first one ahead. -/
  | head : Outcome consumed ahead .head (.char ahead.head?) []
  /-- The one after it is the second one ahead. -/
  | second : Outcome consumed ahead .second (.char ahead.tail.head?) []
  /-- The end is where nothing is ahead. -/
  | atEnd : Outcome consumed ahead .atEnd (.flag ahead.isEmpty) []
  /-- A move passes one character. -/
  | next {ch : Char} {rest : List Char} (h : ahead = ch :: rest) :
    Outcome consumed ahead .next (.char (some ch)) [ch]
  /-- It fails at the end only. -/
  | nextStay (h : ahead = []) : Outcome consumed ahead .next (.char none) []
  /-- A conditional move passes one character that satisfies the condition. -/
  | nextIf {p : Char → Bool} {ch : Char} {rest : List Char} (h : ahead = ch :: rest)
    (hp : p ch = true) : Outcome consumed ahead (.nextIf p) (.char (some ch)) [ch]
  /-- It fails where there is none. -/
  | nextIfStay {p : Char → Bool} (h : ∀ ch, ahead.head? = some ch → p ch = false) :
    Outcome consumed ahead (.nextIf p) (.char none) []
  /-- A run of moves passes the longest run of characters that satisfy the condition. -/
  | passWhile {p : Char → Bool} {run rest : List Char} (h : ahead = run ++ rest)
    (hrun : ∀ ch ∈ run, p ch = true) (hstop : ∀ ch, rest.head? = some ch → p ch = false) :
    Outcome consumed ahead (.passWhile p) (.count run.length) run
  /-- The expected character is passed. -/
  | accept {ch : Char} {rest : List Char} (h : ahead = ch :: rest) :
    Outcome consumed ahead (.accept ch) (.flag true) [ch]
  /-- Nothing is passed where another character or none comes next. -/
  | acceptStay {ch : Char} (h : ahead.head? ≠ some ch) :
    Outcome consumed ahead (.accept ch) (.flag false) []
  /-- An offset between two passed characters cuts out what is passed behind it. -/
  | textSince {start : Nat} {before text : List Char} (h : consumed = before ++ text)
    (hstart : (String.ofList before).utf8ByteSize = start) :
    Outcome consumed ahead (.textSince start) (.text (String.ofList text)) []
  /-- Any other offset cuts out nothing. -/
  | textSinceNone {start : Nat}
    (h : ∀ before text, consumed = before ++ text →
      (String.ofList before).utf8ByteSize ≠ start) :
    Outcome consumed ahead (.textSince start) (.text "") []

/-- `Outcomes consumed ahead ops replies consumed' ahead'` says that the operations `ops`, performed
one after the other, give back `replies` and lead from the one split of the text to the other. -/
inductive CursorOp.Outcomes : List Char → List Char → List CursorOp → List CursorReply →
    List Char → List Char → Prop
  /-- No operation leaves the split as it is. -/
  | nil {consumed ahead : List Char} : Outcomes consumed ahead [] [] consumed ahead
  /-- What an operation passes is consumed for the ones behind it. -/
  | cons {consumed ahead passed consumed' ahead' : List Char} {op : CursorOp} {reply : CursorReply}
    {ops : List CursorOp} {replies : List CursorReply}
    (hop : Outcome consumed (passed ++ ahead) op reply passed)
    (hops : Outcomes (consumed ++ passed) ahead ops replies consumed' ahead') :
    Outcomes consumed (passed ++ ahead) (op :: ops) (reply :: replies) consumed' ahead'

namespace CursorOp

variable {consumed ahead consumed' ahead' passed : List Char} {op : CursorOp} {ops : List CursorOp}
  {reply : CursorReply} {replies : List CursorReply}

/-- What an operation passes is the beginning of what is ahead. -/
lemma Outcome.exists_append (h : Outcome consumed ahead op reply passed) :
    ∃ rest, ahead = passed ++ rest := by
  cases h with
  | next h => exact ⟨_, h⟩
  | nextIf h => exact ⟨_, h⟩
  | passWhile h => exact ⟨_, h⟩
  | accept h => exact ⟨_, h⟩
  | _ => exact ⟨ahead, rfl⟩

/-- Every operation has an outcome at every split of a text. -/
lemma exists_outcome (consumed ahead : List Char) (op : CursorOp) :
    ∃ reply passed, Outcome consumed ahead op reply passed := by
  cases op with
  | head => exact ⟨_, _, .head⟩
  | second => exact ⟨_, _, .second⟩
  | atEnd => exact ⟨_, _, .atEnd⟩
  | next =>
    cases ahead with
    | nil => exact ⟨_, _, .nextStay rfl⟩
    | cons ch rest => exact ⟨_, _, .next rfl⟩
  | nextIf p =>
    by_cases h : ∃ ch rest, ahead = ch :: rest ∧ p ch = true
    · obtain ⟨ch, rest, hahead, hp⟩ := h
      exact ⟨_, _, .nextIf hahead hp⟩
    · refine ⟨_, _, .nextIfStay fun ch hch => ?_⟩
      obtain ⟨rest, hahead⟩ := List.head?_eq_some_iff.1 hch
      exact Bool.eq_false_iff.2 fun hp => h ⟨ch, rest, hahead, hp⟩
  | passWhile p =>
    refine ⟨_, _, .passWhile (List.takeWhile_append_dropWhile (p := p)).symm
      (List.all_eq_true.1 List.all_takeWhile) fun ch hch => ?_⟩
    have hstop := List.head?_dropWhile_not p ahead
    rwa [hch] at hstop
  | accept ch =>
    by_cases h : ahead.head? = some ch
    · obtain ⟨rest, hahead⟩ := List.head?_eq_some_iff.1 h
      exact ⟨_, _, .accept hahead⟩
    · exact ⟨_, _, .acceptStay h⟩
  | textSince start =>
    by_cases h : ∃ before text, consumed = before ++ text ∧
        (String.ofList before).utf8ByteSize = start
    · obtain ⟨before, text, hsplit, hstart⟩ := h
      exact ⟨_, _, .textSince hsplit hstart⟩
    · exact ⟨_, _, .textSinceNone fun before text hsplit hstart =>
        h ⟨before, text, hsplit, hstart⟩⟩

/-- Every sequence of operations has outcomes. -/
lemma exists_outcomes (consumed ahead : List Char) (ops : List CursorOp) :
    ∃ replies consumed' ahead', Outcomes consumed ahead ops replies consumed' ahead' := by
  induction ops generalizing consumed ahead with
  | nil => exact ⟨_, _, _, .nil⟩
  | cons op ops ih =>
    obtain ⟨reply, passed, hop⟩ := exists_outcome consumed ahead op
    obtain ⟨rest, rfl⟩ := hop.exists_append
    obtain ⟨replies, consumed', ahead', hops⟩ := ih (consumed ++ passed) rest
    exact ⟨_, _, _, .cons hop hops⟩

/-- Operations move the split of a text, and they move it forward. -/
lemma Outcomes.exists_append (h : Outcomes consumed ahead ops replies consumed' ahead') :
    ∃ passed, consumed' = consumed ++ passed ∧ ahead = passed ++ ahead' := by
  induction h with
  | nil => exact ⟨[], by simp⟩
  | cons hop hops ih =>
    obtain ⟨passed', rfl, rfl⟩ := ih
    exact ⟨_, List.append_assoc _ _ _, (List.append_assoc _ _ _).symm⟩

/-- Operations do not change the text. -/
lemma Outcomes.append_eq (h : Outcomes consumed ahead ops replies consumed' ahead') :
    consumed' ++ ahead' = consumed ++ ahead := by
  obtain ⟨passed, rfl, rfl⟩ := h.exists_append
  exact List.append_assoc _ _ _

end CursorOp

/-! ## The bytes of a text -/

/-- The bytes of a text, counted on its characters. -/
lemma utf8ByteSize_ofList (text : List Char) :
    (String.ofList text).utf8ByteSize = byteLength text := by
  induction text with
  | nil => rfl
  | cons ch text ih =>
    rw [← List.singleton_append, String.ofList_append, String.utf8ByteSize_append, ih,
      byteLength_append]
    simp [byteLength]

/-- The text between two of three parts is the part in the middle. -/
lemma textBetween?_append (a b c : String) :
    textBetween? (a ++ b ++ c) a.utf8ByteSize (a ++ b).utf8ByteSize = some b := by
  have hcut : String.Pos.Raw.IsValid (a ++ b ++ c) ⟨a.utf8ByteSize⟩ ∧
      String.Pos.Raw.IsValid (a ++ b ++ c) ⟨(a ++ b).utf8ByteSize⟩ ∧
      a.utf8ByteSize ≤ (a ++ b).utf8ByteSize := by
    refine ⟨String.Pos.Raw.isValid_iff_exists_append.2 ⟨a, b ++ c, String.append_assoc, rfl⟩,
      String.Pos.Raw.isValid_iff_exists_append.2 ⟨a ++ b, c, rfl, rfl⟩, ?_⟩
    rw [String.utf8ByteSize_append]
    exact Nat.le_add_right _ _
  rw [textBetween?, dif_pos hcut, Option.some.injEq, ← String.toByteArray_inj,
    String.toByteArray_extract, String.offset_pos, String.offset_pos, String.toByteArray_append,
    ← String.size_toByteArray, ← String.size_toByteArray, ByteArray.extract_append_size_left,
    String.toByteArray_append]
  exact ByteArray.extract_append_eq_right rfl ByteArray.size_append

/-- Where the text between two offsets is there, the first one is the number of bytes of a
beginning of what is before the second one. -/
lemma exists_append_of_textBetween? {source text : String} {consumed ahead : List Char}
    {start : Nat} (hsource : source.toList = consumed ++ ahead)
    (h : textBetween? source start (byteLength consumed) = some text) :
    ∃ before after, consumed = before ++ after ∧
      (String.ofList before).utf8ByteSize = start := by
  unfold textBetween? at h
  split at h
  · next hcut =>
    obtain ⟨hvalid, -, hle⟩ := hcut
    obtain ⟨first, last, rfl, hstart⟩ := String.Pos.Raw.isValid_iff_exists_append.1 hvalid
    have hsize : start = byteLength first.toList := by
      rw [← utf8ByteSize_ofList, String.ofList_toList]
      exact congrArg String.Pos.Raw.byteIdx hstart
    rw [String.toList_append] at hsource
    rcases List.append_eq_append_iff.1 hsource with ⟨after, hconsumed, -⟩ | ⟨after, hfirst, -⟩
    · exact ⟨first.toList, after, hconsumed, by rw [utf8ByteSize_ofList, hsize]⟩
    · -- A beginning of the whole text that reaches beyond `consumed` has more bytes.
      rw [hfirst, byteLength_append] at hsize
      exact ⟨consumed, [], (List.append_nil _).symm, by rw [utf8ByteSize_ofList]; omega⟩
  · cases h

/-! ## The cursor that keeps an offset -/

namespace ByteCursor

/-- The cursor that stands behind the beginning `consumed` of a text: its offset is the number of
UTF-8 bytes of `consumed`, and its location is counted on `consumed`. -/
def behind (source : String) (consumed : List Char) : ByteCursor :=
  ⟨source, (String.ofList consumed).utf8ByteSize, referenceLocation consumed⟩

section Behind

variable {source : String} {consumed ahead : List Char}
  (h : source.toList = consumed ++ ahead)

include h

/-- What is still ahead is the other part of the text. -/
lemma rest_behind : (behind source consumed).rest = String.ofList ahead := by
  have hsource : String.ofList consumed ++ String.ofList ahead = source := by
    rw [← String.ofList_append, ← h, String.ofList_toList]
  have hcut := textBetween?_append (String.ofList consumed) (String.ofList ahead) ""
  rw [String.append_empty, hsource] at hcut
  exact congrArg (Option.getD · "") hcut

/-- The next character is the first one of the other part. -/
lemma head?_behind : (behind source consumed).head? = ahead.head? := by
  rw [head?, rest_behind h, String.toList_ofList]

/-- The one after it is the second one of the other part. -/
lemma second?_behind : (behind source consumed).second? = ahead.tail.head? := by
  rw [second?, rest_behind h, String.toList_ofList]

/-- All bytes are passed where the other part is empty. -/
lemma atEnd_behind : (behind source consumed).atEnd = ahead.isEmpty := by
  have hsource : source = String.ofList (consumed ++ ahead) := by rw [← h, String.ofList_toList]
  have hsize : source.utf8ByteSize = byteLength consumed + byteLength ahead := by
    rw [hsource, utf8ByteSize_ofList, byteLength_append]
  show decide (source.utf8ByteSize ≤ (String.ofList consumed).utf8ByteSize) = _
  rw [hsize, utf8ByteSize_ofList]
  cases ahead with
  | nil => simp [byteLength]
  | cons ch rest =>
    have hpos := ch.utf8Size_pos
    refine decide_eq_false ?_
    rw [byteLength]
    omega

/-- At the end no character can be passed. -/
lemma next?_behind_of_nil (hahead : ahead = []) : (behind source consumed).next? = none := by
  rw [next?, head?_behind h, hahead]
  rfl

/-- The next character is passed, whatever it is. -/
lemma next?_behind_of_cons {ch : Char} {rest : List Char} (hahead : ahead = ch :: rest) :
    (behind source consumed).next? = some (ch, behind source (consumed ++ [ch])) := by
  rw [next?, head?_behind h, hahead]
  simp [behind, ← Location.after_start]

/-- A conditional move passes the next character if it satisfies the condition. -/
lemma nextIf?_behind_of_cons {p : Char → Bool} {ch : Char} {rest : List Char}
    (hahead : ahead = ch :: rest) (hp : p ch = true) :
    (behind source consumed).nextIf? p = some (ch, behind source (consumed ++ [ch])) := by
  rw [nextIf?, head?_behind h, hahead]
  simp [hp, next?_behind_of_cons h hahead]

/-- A conditional move fails where no character that satisfies the condition comes next. -/
lemma nextIf?_behind_of_stop {p : Char → Bool}
    (hstop : ∀ ch, ahead.head? = some ch → p ch = false) :
    (behind source consumed).nextIf? p = none := by
  rw [nextIf?, head?_behind h]
  cases hhead : ahead.head? with
  | none => rfl
  | some ch => simp [hstop ch hhead]

/-- The text since an offset between two passed characters is what is passed behind it. -/
lemma textSince_behind {start : Nat} {before text : List Char} (hsplit : consumed = before ++ text)
    (hstart : (String.ofList before).utf8ByteSize = start) :
    (behind source consumed).textSince start = String.ofList text := by
  have hsource : String.ofList before ++ String.ofList text ++ String.ofList ahead = source := by
    rw [← String.ofList_append, ← String.ofList_append, ← hsplit, ← h, String.ofList_toList]
  have hcut := textBetween?_append (String.ofList before) (String.ofList text)
    (String.ofList ahead)
  rw [hsource, ← String.ofList_append, ← hsplit, hstart] at hcut
  exact congrArg (Option.getD · "") hcut

/-- The text since any other offset is empty. -/
lemma textSince_behind_of_none {start : Nat}
    (hstart : ∀ before text, consumed = before ++ text →
      (String.ofList before).utf8ByteSize ≠ start) :
    (behind source consumed).textSince start = "" := by
  have hcut : textBetween? source start (byteLength consumed) = none := by
    refine Option.eq_none_iff_forall_ne_some.2 fun text htext => ?_
    obtain ⟨before, after, hsplit, hsize⟩ := exists_append_of_textBetween? h htext
    exact hstart before after hsplit hsize
  rw [← utf8ByteSize_ofList] at hcut
  exact congrArg (Option.getD · "") hcut

end Behind

/-- A run of moves passes the longest run of characters that satisfy the condition, and counts
them.

**Proof sketch.** Induction on the run. Its first character is passed by the first move, which
leaves a cursor behind one character more; behind the run the next move fails. -/
lemma passWhileFrom_behind {source : String} {consumed run rest : List Char} {p : Char → Bool}
    (n : Nat) (h : source.toList = consumed ++ (run ++ rest)) (hrun : ∀ ch ∈ run, p ch = true)
    (hstop : ∀ ch, rest.head? = some ch → p ch = false) :
    passWhileFrom p n (behind source consumed) =
      (n + run.length, behind source (consumed ++ run)) := by
  induction run generalizing consumed n with
  | nil =>
    have hnone := nextIf?_behind_of_stop h hstop
    rw [passWhileFrom]
    split
    · next hsome =>
      rw [hnone] at hsome
      cases hsome
    · simp
  | cons ch run ih =>
    have hsome := nextIf?_behind_of_cons h rfl (hrun ch List.mem_cons_self)
    have h' : source.toList = (consumed ++ [ch]) ++ (run ++ rest) := by simp [h]
    rw [passWhileFrom]
    split
    · next d hd =>
      rw [hsome] at hd
      cases hd
      rw [ih (n + 1) h' fun c hc => hrun c (List.mem_cons_of_mem _ hc), List.append_assoc,
        List.singleton_append, List.length_cons]
      simp only [Prod.mk.injEq, and_true]
      omega
    · next hd =>
      rw [hsome] at hd
      cases hd

/-- The cursor does what is said on the text: it gives back the same, and it stands behind what was
passed. -/
theorem perform_behind {source : String} {consumed ahead passed : List Char} {op : CursorOp}
    {reply : CursorReply} (h : source.toList = consumed ++ ahead)
    (hop : op.Outcome consumed ahead reply passed) :
    (behind source consumed).perform op = (reply, behind source (consumed ++ passed)) := by
  cases hop with
  | head => simp [perform, head?_behind h]
  | second => simp [perform, second?_behind h]
  | atEnd => simp [perform, atEnd_behind h]
  | next hahead => simp [perform, next?_behind_of_cons h hahead, CursorReply.ofMove]
  | nextStay hahead => simp [perform, next?_behind_of_nil h hahead, CursorReply.ofMove]
  | nextIf hahead hp => simp [perform, nextIf?_behind_of_cons h hahead hp, CursorReply.ofMove]
  | nextIfStay hstop => simp [perform, nextIf?_behind_of_stop h hstop, CursorReply.ofMove]
  | passWhile hahead hrun hstop =>
    rw [hahead] at h
    simp [perform, passWhile, passWhileFrom_behind 0 h hrun hstop]
  | accept hahead => simp [perform, accept, nextIf?_behind_of_cons h hahead]
  | acceptStay hhead =>
    simp [perform, accept, nextIf?_behind_of_stop h (Cursor.beq_eq_false_of_head?_ne hhead)]
  | textSince hsplit hstart => simp [perform, textSince_behind h hsplit hstart]
  | textSinceNone hstart => simp [perform, textSince_behind_of_none h hstart]

/-- The same for operations one after the other. -/
theorem performAll_behind {source : String} {consumed ahead consumed' ahead' : List Char}
    {ops : List CursorOp} {replies : List CursorReply} (h : source.toList = consumed ++ ahead)
    (hops : CursorOp.Outcomes consumed ahead ops replies consumed' ahead') :
    (behind source consumed).performAll ops = (replies, behind source consumed') := by
  induction hops with
  | nil => rfl
  | cons hop hops ih =>
    rw [← List.append_assoc] at h
    simp [performAll, perform_behind (h.trans (List.append_assoc _ _ _)) hop, ih h]

end ByteCursor

/-! ## The cursor that keeps two parts -/

namespace Cursor

/-- The cursor that stands between `consumed` and `ahead`. -/
def behind (consumed ahead : List Char) : Cursor :=
  ⟨consumed.reverse, ahead, (String.ofList consumed).utf8ByteSize, referenceLocation consumed⟩

/-- A text that is passed joins what is consumed. -/
lemma past_behind (consumed text rest ahead : List Char) :
    (behind consumed ahead).past text rest = behind (consumed ++ text) rest := by
  simp [past, behind, utf8ByteSize_ofList, ← Location.after_start]

/-- The text since an offset between two consumed characters is what is consumed behind it. -/
lemma textSince_behind {before text ahead : List Char} {start : Nat}
    (hstart : (String.ofList before).utf8ByteSize = start) :
    (behind (before ++ text) ahead).textSince start = text := by
  rw [← past_behind before text ahead ahead, ← hstart]
  exact textSince_past (behind before ahead) text ahead

/-- The text since any other offset is empty. -/
lemma textSince_behind_of_none {consumed ahead : List Char} {start : Nat}
    (hstart : ∀ before text, consumed = before ++ text →
      (String.ofList before).utf8ByteSize ≠ start) :
    (behind consumed ahead).textSince start = [] := by
  have hcut : (behind consumed ahead).textSince? start = none := by
    refine Option.eq_none_iff_forall_ne_some.2 fun text htext => ?_
    obtain ⟨before, hconsumed, hoffset⟩ := exists_append_of_textSince? htext
    have hsplit : consumed = before.reverse ++ text := by
      rw [← List.reverse_inj]
      simpa [behind] using hconsumed
    refine hstart _ _ hsplit ?_
    simp only [behind, hsplit, utf8ByteSize_ofList, byteLength_append] at hoffset ⊢
    omega
  rw [textSince, hcut, Option.getD_none]

/-- The cursor does what is said on the text: it gives back the same, and it stands behind what was
passed. -/
theorem perform_behind {consumed ahead passed : List Char} {op : CursorOp} {reply : CursorReply}
    (hop : op.Outcome consumed ahead reply passed) :
    (behind consumed ahead).perform op =
      (reply, behind (consumed ++ passed) (ahead.drop passed.length)) := by
  have hrest : (behind consumed ahead).rest = ahead := rfl
  cases hop with
  | head => simp [perform, head?, hrest]
  | second => simp [perform, second?, hrest]
  | atEnd => simp [perform, atEnd, hrest]
  | next h =>
    rw [perform, next?_of_cons (hrest.trans h), CursorReply.ofMove, past_behind, h]
    rfl
  | nextStay h => simp [perform, next?_of_nil (hrest.trans h), CursorReply.ofMove]
  | nextIf h hp =>
    rw [perform, nextIf?_of_cons (hrest.trans h), if_pos hp, CursorReply.ofMove, past_behind, h]
    rfl
  | nextIfStay hstop =>
    simp [perform, nextIf?_of_stop (c := behind consumed ahead) hstop, CursorReply.ofMove]
  | passWhile h hrun hstop =>
    rw [perform, passWhile_eq_of_run (hrest.trans h) hrun hstop, past_behind, h, List.drop_left]
    rfl
  | accept h =>
    rw [perform, accept_of_cons (hrest.trans h), past_behind, h]
    rfl
  | acceptStay hhead => simp [perform, accept_of_ne (c := behind consumed ahead) hhead]
  | textSince h hstart => simp [perform, h, textSince_behind hstart]
  | textSinceNone hstart => simp [perform, textSince_behind_of_none hstart]

/-- The same for operations one after the other. -/
theorem performAll_behind {consumed ahead consumed' ahead' : List Char} {ops : List CursorOp}
    {replies : List CursorReply}
    (hops : CursorOp.Outcomes consumed ahead ops replies consumed' ahead') :
    (behind consumed ahead).performAll ops = (replies, behind consumed' ahead') := by
  induction hops with
  | nil => rfl
  | cons hop hops ih => simp [performAll, perform_behind hop, ih]

end Cursor

/-! ## From the start of a text -/

/-- More operations are performed by the cursor that the earlier ones leave. -/
lemma ByteCursor.performAll_append_snd (c : ByteCursor) (ops more : List CursorOp) :
    (c.performAll (ops ++ more)).2 = ((c.performAll ops).2.performAll more).2 := by
  induction ops generalizing c with
  | nil => rfl
  | cons op ops ih => exact ih (c.perform op).2

/-- Locations behind two beginnings of a text, one of which goes on from the other, are ordered as
their byte offsets. -/
lemma compare_behind (source : String) (consumed passed : List Char) :
    compare (ByteCursor.behind source consumed).location
        (ByteCursor.behind source (consumed ++ passed)).location =
      compare (ByteCursor.behind source consumed).offset
        (ByteCursor.behind source (consumed ++ passed)).offset := by
  cases passed with
  | nil =>
    rw [List.append_nil, Nat.compare_eq_eq.2 rfl]
    show (compare _ _).then (compare _ _) = _
    rw [Nat.compare_eq_eq.2 rfl, Nat.compare_eq_eq.2 rfl]
    rfl
  | cons ch passed =>
    have hlocation : referenceLocation consumed < referenceLocation (consumed ++ ch :: passed) := by
      rw [← Location.after_start, ← Location.after_start, Location.after_append]
      exact Location.lt_after _ (List.cons_ne_nil _ _)
    have hoffset : byteLength consumed < byteLength (consumed ++ ch :: passed) := by
      have hpos := ch.utf8Size_pos
      rw [byteLength_append, byteLength]
      omega
    have hbytes : (ByteCursor.behind source consumed).offset <
        (ByteCursor.behind source (consumed ++ ch :: passed)).offset := by
      simpa only [ByteCursor.behind, utf8ByteSize_ofList] using hoffset
    rw [Nat.compare_eq_lt.2 hbytes]
    exact hlocation

/-- **A cursor that keeps a byte offset refines the text that it stands in.** Whatever operations
are performed on a new cursor, there is a split of the text such that the cursor stands behind the
first part: its offset is the number of UTF-8 bytes of that part, and its line and column are
counted on it. Every operation on the way gives back and passes what is said on the split at which
it is performed. A cursor that keeps the two parts gives back the same and stands at the same split.
While the cursor moves on, its locations are ordered as its offsets: it stands at a later location
as soon as one character is passed.

**Proof sketch.** On the text every sequence of operations has outcomes, and they move the split
forward. Both cursors are at every split what `behind` says, so by induction over the operations
they follow. Locations increase with every character, and so do offsets. -/
theorem byteCursor_refines_text (source : String) (ops : List CursorOp) :
    ∃ replies consumed ahead,
      CursorOp.Outcomes [] source.toList ops replies consumed ahead ∧
      source.toList = consumed ++ ahead ∧
      (ByteCursor.ofString source).performAll ops =
        (replies, ByteCursor.behind source consumed) ∧
      (Cursor.ofString source).performAll ops = (replies, Cursor.behind consumed ahead) ∧
      ∀ more,
        compare ((ByteCursor.ofString source).performAll ops).2.location
            ((ByteCursor.ofString source).performAll (ops ++ more)).2.location =
          compare ((ByteCursor.ofString source).performAll ops).2.offset
            ((ByteCursor.ofString source).performAll (ops ++ more)).2.offset := by
  obtain ⟨replies, consumed, ahead, hops⟩ := CursorOp.exists_outcomes [] source.toList ops
  have hsplit : source.toList = consumed ++ ahead := hops.append_eq.symm
  have hbytes : (ByteCursor.ofString source).performAll ops =
      (replies, ByteCursor.behind source consumed) := ByteCursor.performAll_behind rfl hops
  refine ⟨replies, consumed, ahead, hops, hsplit, hbytes, Cursor.performAll_behind hops, ?_⟩
  intro more
  obtain ⟨moreReplies, last, rest, hmore⟩ := CursorOp.exists_outcomes consumed ahead more
  obtain ⟨passed, rfl, -⟩ := hmore.exists_append
  rw [ByteCursor.performAll_append_snd, hbytes, ByteCursor.performAll_behind hsplit hmore]
  exact compare_behind source consumed passed

/-- Offset 1 falls inside the first character, so nothing is cut out from there. -/
example : (ByteCursor.ofString "ét\né").performAll
    [.passWhile (· != '\n'), .textSince 0, .textSince 1, .textSince 2, .next, .head, .second] =
      ([.count 2, .text "ét", .text "", .text "t", .char (some '\n'), .char (some 'é'),
        .char none], ⟨"ét\né", 4, ⟨2, 1⟩⟩) := by
  decide +kernel

end LoxLex
