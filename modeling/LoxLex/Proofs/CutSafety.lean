import LoxLex.Proofs.CursorRefinement
import LoxLex.Proofs.Exhaustion
import LoxLex.StrictScanner

set_option relaxedAutoImplicit false
set_option autoImplicit false

/-!
# A strict scanner never fails

Everything that a scanner cuts out of its source is there, and every text that it reads as a number
is one. The offset of its cursor is always the number of bytes of what is consumed, so all places
that the cursor has come to lie between two characters, and an earlier place is not behind a later
one. A scanner that insists on its cuts finds the same items as one that keeps the two parts of the
source and cuts nothing.

## Main definitions

* `LoxLex.Cursor.bytes` — a cursor by its byte offset alone.
* `LoxLex.Cursor.Placed` — the offset of a cursor counts the bytes of what is consumed.
* `LoxLex.Cursor.Reaches` — a cursor leads on to another one.

## Main results

* `LoxLex.cut_eq_ok_iff` — which cuts are there.
* `LoxLex.Cursor.textSince_bytes` — those between two places of a cursor are.
* `LoxLex.Cursor.step_bytes` — a strict step is a step.
* `LoxLex.scan_never_misreads` — a strict scan is a scan.
-/

namespace LoxLex


/-! ## Cuts and numbers that are there -/

/-- The text between two of three parts is the part in the middle. -/
lemma cut_append (a b c : List Char) :
    Strict.cut (String.ofList (a ++ b ++ c)) (byteLength a) (byteLength (a ++ b)) =
      .ok (String.ofList b) := by
  have hcut := textBetween?_append (String.ofList a) (String.ofList b) (String.ofList c)
  rw [← String.ofList_append, ← String.ofList_append, utf8ByteSize_ofList, utf8ByteSize_ofList]
    at hcut
  rw [Strict.cut, hcut]

/-- Where the text between two offsets is there, the second one is the number of bytes of a
beginning of the source. -/
lemma exists_append_of_textBetween?_last {source text : String} {first last : Nat}
    (h : textBetween? source first last = some text) :
    ∃ front behind, source = front ++ behind ∧ front.utf8ByteSize = last := by
  unfold textBetween? at h
  split at h
  · next hcut =>
    obtain ⟨front, behind, hsource, hlast⟩ := String.Pos.Raw.isValid_iff_exists_append.1 hcut.2.1
    exact ⟨front, behind, hsource, (congrArg String.Pos.Raw.byteIdx hlast).symm⟩
  · cases h

/-- A cut is there just if the source has three parts, of which it is the one in the middle: the
offsets lie between characters, and the first one is not behind the second one.

**Proof sketch.** Both offsets part the source. The beginning with fewer bytes is the front of the
other one, so there are three parts. -/
theorem cut_eq_ok_iff (source : String) (first last : Nat) (text : String) :
    Strict.cut source first last = .ok text ↔
      ∃ before behind, source = before ++ text ++ behind ∧ before.utf8ByteSize = first ∧
        (before ++ text).utf8ByteSize = last := by
  constructor
  · intro h
    have hcut : textBetween? source first last = some text := by
      unfold Strict.cut at h
      split at h <;> cases h
      assumption
    obtain ⟨front, behind, rfl, rfl⟩ := exists_append_of_textBetween?_last hcut
    have hsize : front.utf8ByteSize = byteLength front.toList := by
      rw [← utf8ByteSize_ofList, String.ofList_toList]
    have hsource : (front ++ behind).toList = front.toList ++ behind.toList := String.toList_append
    obtain ⟨before, middle, hfront, rfl⟩ :=
      exists_append_of_textBetween? hsource (hsize ▸ hcut)
    obtain rfl : front = String.ofList before ++ String.ofList middle := by
      rw [← String.ofList_append, ← hfront, String.ofList_toList]
    rw [textBetween?_append] at hcut
    obtain rfl : String.ofList middle = text := Option.some.inj hcut
    exact ⟨String.ofList before, behind, rfl, rfl, rfl⟩
  · rintro ⟨before, behind, rfl, rfl, rfl⟩
    rw [Strict.cut, textBetween?_append]

/-- A text that stands for a number is of the form of one. -/
lemma isNumber_of_ofText? {text : List Char} {value : Binary64}
    (h : Binary64.ofText? text = some value) : IsNumber text := by
  have hsplit := List.takeWhile_append_dropWhile (p := isDigit) (l := text)
  have hdigits : ∀ ch ∈ text.takeWhile isDigit, isDigit ch = true :=
    fun ch => List.mem_takeWhile_imp
  unfold Binary64.ofText? at h
  simp only at h
  split at h
  · cases h
  · next hne =>
    have hwhole : IsDigits (text.takeWhile isDigit) := ⟨by simpa using hne, hdigits⟩
    split at h
    · next hrest =>
      rw [hrest, List.append_nil] at hsplit
      exact .inl (hsplit ▸ hwhole)
    · next point fraction hrest =>
      split at h
      · next hfraction =>
        obtain ⟨rfl, hne', hall⟩ := hfraction
        rw [hrest] at hsplit
        exact .inr ⟨_, fraction, hwhole, ⟨hne', List.all_eq_true.1 hall⟩, hsplit.symm⟩
      · cases h

/-- A text stands for a number just if it is of the form of one. -/
theorem exists_readNumber_iff (text : String) :
    (∃ value, Strict.readNumber text = .ok value) ↔ IsNumber text.toList := by
  constructor
  · rintro ⟨value, h⟩
    unfold Strict.readNumber at h
    split at h
    · next hvalue => exact isNumber_of_ofText? hvalue
    · cases h
  · intro h
    obtain ⟨value, hvalue⟩ := h.exists_value
    exact ⟨value, by rw [Strict.readNumber, hvalue]⟩

/-! ## Cursors by their byte offsets -/

namespace Cursor

/-- The cursor that keeps the whole text and the offset. -/
def bytes (c : Cursor) : ByteCursor := ⟨String.ofList c.source, c.offset, c.location⟩

/-- The offset counts the bytes of what is consumed. -/
def Placed (c : Cursor) : Prop := c.offset = byteLength c.consumed.reverse

/-- `d` stands behind some of the characters that are ahead of `c`. -/
def Reaches (c d : Cursor) : Prop := ∃ text rest, c.rest = text ++ rest ∧ d = c.past text rest

section Places

variable {c d e : Cursor}

/-- A cursor reaches its own place. -/
lemma Reaches.refl (c : Cursor) : c.Reaches c := ⟨[], c.rest, rfl, rfl⟩

/-- What is reached from a place that is reached is reached. -/
lemma Reaches.trans (h : c.Reaches d) (h' : d.Reaches e) : c.Reaches e := by
  obtain ⟨text, rest, hrest, rfl⟩ := h
  obtain ⟨text', rest', hrest', rfl⟩ := h'
  rw [past_rest] at hrest'
  exact ⟨text ++ text', rest', by rw [hrest, hrest', List.append_assoc], past_past c _ _ _ _⟩

/-- The source remains the same. -/
lemma Reaches.source_eq (h : c.Reaches d) : d.source = c.source := by
  obtain ⟨text, rest, hrest, rfl⟩ := h
  simp [source, past, hrest]

/-- The offset goes on to count what is consumed. -/
lemma Reaches.placed (h : c.Reaches d) (hc : c.Placed) : d.Placed := by
  obtain ⟨text, rest, -, rfl⟩ := h
  unfold Placed at hc ⊢
  rw [past_offset, hc, past, List.reverse_append, List.reverse_reverse, byteLength_append]

/-- A move reaches the place behind the next character. -/
lemma reaches_of_next? {ch : Char} (h : c.next? = some (ch, d)) : c.Reaches d := by
  cases hrest : c.rest with
  | nil => rw [next?_of_nil hrest] at h; cases h
  | cons first rest =>
    rw [next?_of_cons hrest] at h
    cases h
    exact ⟨[ch], rest, hrest, rfl⟩

/-- A run of moves reaches the place where it stops. -/
lemma reaches_passWhile (p : Char → Bool) (c : Cursor) : c.Reaches (c.passWhile p).2 := by
  rw [passWhile_eq]
  exact ⟨_, _, List.takeWhile_append_dropWhile.symm, rfl⟩

/-- A step reaches the place behind it. -/
lemma reaches_of_step (h : c.step.after? = some d) : c.Reaches d := by
  by_cases hrest : c.rest = []
  · rw [step, next?_of_nil hrest] at h
    cases h
  · obtain ⟨p, rest, hp, hlead⟩ := exists_leads hrest
    rw [step_of_leads hp hlead, Piece.step] at h
    refine ⟨p.text, rest, hp, ?_⟩
    cases hrole : p.role <;> rw [hrole] at h <;> cases h <;> rfl

end Places

/-! ## Strict moves -/

section Moves

variable {c : Cursor} (h : c.Placed)

include h

/-- What is between an earlier place and a later one is there, and it is the text since the earlier
place. -/
theorem textSince_bytes {d : Cursor} (hd : c.Reaches d) :
    Strict.textSince d.bytes c.offset = .ok (String.ofList (d.textSince c.offset)) := by
  have hsource := hd.source_eq
  obtain ⟨text, rest, hrest, rfl⟩ := hd
  rw [Strict.textSince, bytes, hsource, textSince_past, past_offset, source, hrest,
    ← List.append_assoc, h, ← byteLength_append]
  exact cut_append c.consumed.reverse text rest

/-- What is ahead is there. -/
lemma rest_bytes : Strict.rest c.bytes = .ok (String.ofList c.rest) := by
  have hsize : c.bytes.source.utf8ByteSize = byteLength (c.consumed.reverse ++ c.rest) :=
    utf8ByteSize_ofList _
  have hcut := cut_append c.consumed.reverse c.rest []
  rw [List.append_nil] at hcut
  rw [Strict.rest, hsize, bytes, source, h]
  exact hcut

/-- The next character is seen. -/
lemma head_bytes : Strict.head c.bytes = .ok c.head? := by
  simp [Strict.head, rest_bytes h, head?]

/-- The one after it is seen. -/
lemma second_bytes : Strict.second c.bytes = .ok c.second? := by
  simp [Strict.second, rest_bytes h, second?]

/-- A strict move is a move. -/
lemma next_bytes : Strict.next c.bytes = .ok (c.next?.map (Prod.map id bytes)) := by
  rw [Strict.next, head_bytes h, ok_bind, head?]
  cases hrest : c.rest with
  | nil =>
    rw [next?_of_nil hrest]
    rfl
  | cons ch rest =>
    have hsource := (reaches_of_next? (next?_of_cons hrest)).source_eq
    rw [next?_of_cons hrest, Option.map_some, Prod.map_apply, bytes, bytes, hsource]
    rfl

/-- A strict conditional move is a conditional move. -/
lemma nextIf_bytes (p : Char → Bool) :
    Strict.nextIf p c.bytes = .ok ((c.nextIf? p).map (Prod.map id bytes)) := by
  rw [Strict.nextIf, head_bytes h, ok_bind, nextIf?]
  cases c.head? with
  | none => rfl
  | some ch =>
    simp only [next_bytes h]
    split <;> rfl

/-- A strict run of moves is a run of moves.

**Proof sketch.** Induction along the moves; behind each of them the offset is still the number of
bytes of what is consumed. -/
lemma passWhileFrom_bytes (p : Char → Bool) (n : Nat) :
    Strict.passWhileFrom p n c.bytes = .ok ((c.passWhileFrom p n).map id bytes) := by
  fun_induction passWhileFrom p n c with
  | case1 n c ch d hnext ih =>
    have hd : d.Placed := (reaches_of_next? (next?_of_nextIf? hnext)).placed h
    have hstrict : Strict.nextIf p c.bytes = .ok (some (ch, d.bytes)) := by
      rw [nextIf_bytes h, hnext]
      rfl
    rw [Strict.passWhileFrom]
    split <;> simp_all
  | case2 n c hnext =>
    have hstrict : Strict.nextIf p c.bytes = .ok none := by
      rw [nextIf_bytes h, hnext]
      rfl
    rw [Strict.passWhileFrom]
    split <;> simp_all

/-- A strict run of moves is a run of moves. -/
lemma passWhile_bytes (p : Char → Bool) :
    Strict.passWhile p c.bytes = .ok ((c.passWhile p).map id bytes) :=
  passWhileFrom_bytes h p 0

/-- A strict attempt to match is an attempt to match. -/
lemma accept_bytes (ch : Char) : Strict.accept ch c.bytes = .ok ((c.accept ch).map id bytes) := by
  rw [Strict.accept, nextIf_bytes h, ok_bind, accept]
  cases c.nextIf? (· == ch) <;> rfl

end Moves

/-! ## Strict lexemes -/

/-- `Agree s r` says that `r` finds the lexeme or the error of the step `s`, and leads to the same
place. -/
inductive Agree : Step → Except Misread Strict.Lexed → Prop where
  | lexeme (kind : Kind) (after : Cursor) : Agree (.lexeme kind after) (.ok (.ok kind, after.bytes))
  | fault (error : LexError) (after : Cursor) :
    Agree (.fault error after) (.ok (.error error, after.bytes))

section Lexemes

variable {b c : Cursor}

/-- The rest of a string. -/
lemma stringLexeme_bytes (h : c.Placed) (start : Location) :
    Agree (c.stringLexeme start) (Strict.stringLexeme start c.bytes) := by
  have hclose := reaches_passWhile (· != '\x22') c
  rw [Strict.stringLexeme, passWhile_bytes h, stringLexeme]
  simp only [ok_bind, Prod.map, accept_bytes (hclose.placed h)]
  rw [show c.bytes.offset = c.offset from rfl, textSince_bytes h hclose, ok_bind]
  cases (c.passWhile (· != '\x22')).2.accept '\x22' with
  | mk closed after =>
    cases closed with
    | true => exact .lexeme _ after
    | false => exact .fault _ after

/-- The part of a number behind its first digits. -/
lemma passFraction_bytes (h : c.Placed) :
    Strict.passFraction c.bytes =
      .ok (if c.head? = some '.' ∧ c.second?.any isDigit then
        match c.next? with
        | some (_, fraction) => (fraction.passWhile isDigit).2
        | none => c
      else c).bytes := by
  rw [Strict.passFraction, head_bytes h, ok_bind]
  by_cases hhead : c.head? = some '.'
  · rw [if_pos hhead, second_bytes h, ok_bind]
    by_cases hsecond : c.second?.any isDigit = true
    · rw [if_pos hsecond, if_pos ⟨hhead, hsecond⟩, next_bytes h, ok_bind]
      obtain ⟨rest, hrest⟩ := List.head?_eq_some_iff.1 hhead
      have hpoint := next?_of_cons hrest
      have hplaced := (reaches_of_next? hpoint).placed h
      simp [hpoint, passWhile_bytes hplaced]
    · rw [if_neg hsecond, if_neg fun hboth => hsecond hboth.2]
      rfl
  · rw [if_neg hhead, if_neg fun hboth => hhead hboth.1]
    rfl

/-- The rest of a number, the first digit of which is passed.

**Proof sketch.** Behind the rest of the number stands the cursor that has passed a number, so this
is what is cut out, and it has a value. -/
lemma numberLexeme_bytes (h : c.Placed) {ch : Char} {text : List Char} (hrest : c.rest = ch :: text)
    (hdigit : isDigit ch = true) :
    Agree ((c.past [ch] text).numberLexeme c.offset)
      (Strict.numberLexeme c.offset (c.past [ch] text).bytes) := by
  obtain ⟨number, rest, heq, hnumber, hstop, hpoint⟩ := exists_number hdigit text
  obtain ⟨first, others, rfl, -⟩ := hnumber.front
  obtain ⟨rfl, rfl⟩ : ch = first ∧ text = others ++ rest := by simpa using heq
  obtain ⟨value, hvalue⟩ := hnumber.exists_value
  have hfirst : c.Reaches (c.past [ch] (others ++ rest)) := ⟨[ch], others ++ rest, hrest, rfl⟩
  have hafter : (c.past [ch] (others ++ rest)).afterNumber = c.past (ch :: others) rest := by
    rw [afterNumber_of_isNumber (past_rest c [ch] (others ++ rest)) hnumber hstop hpoint, past_past,
      List.singleton_append]
  have hreach : c.Reaches (c.past (ch :: others) rest) := ⟨ch :: others, rest, hrest, rfl⟩
  have hwhole := reaches_passWhile isDigit (c.past [ch] (others ++ rest))
  have hfraction : Strict.passFraction ((c.past [ch] (others ++ rest)).passWhile isDigit).2.bytes =
      .ok (c.past (ch :: others) rest).bytes := by
    rw [← hafter]
    exact passFraction_bytes (hwhole.placed (hfirst.placed h))
  have hstrict : Strict.numberLexeme c.offset (c.past [ch] (others ++ rest)).bytes =
      .ok (.ok (.literal (.number value)), (c.past (ch :: others) rest).bytes) := by
    rw [Strict.numberLexeme, passWhile_bytes (hfirst.placed h)]
    simp only [ok_bind, Prod.map, id, hfraction, textSince_bytes h hreach, textSince_past,
      Strict.readNumber, String.toList_ofList, hvalue, pure_eq_ok]
  rw [hstrict, numberLexeme]
  simp only [hafter, textSince_past, hvalue, Option.getD_some]
  exact .lexeme _ _

/-- The rest of a word that began at `b`. -/
lemma wordLexeme_bytes (h : b.Placed) (hc : b.Reaches c) :
    Agree (c.wordLexeme b.offset) (Strict.wordLexeme b.offset c.bytes) := by
  have hafter := reaches_passWhile isWordPart c
  rw [Strict.wordLexeme, passWhile_bytes (hc.placed h), wordLexeme]
  simp only [ok_bind, Prod.map, id, textSince_bytes h (hc.trans hafter)]
  cases Keyword.ofSpelling? (String.ofList ((c.passWhile isWordPart).2.textSince b.offset)) with
  | none => exact .lexeme _ _
  | some word => exact .lexeme _ _

/-- An operator, the first character of which is passed. -/
lemma operatorLexeme_bytes (h : c.Placed) (op : Operator) :
    Agree (c.operatorLexeme op) (Strict.operatorLexeme op c.bytes) := by
  rw [Strict.operatorLexeme, operatorLexeme]
  cases op.withEqual? with
  | none => exact .lexeme _ _
  | some longer =>
    simp only [accept_bytes h, ok_bind]
    cases c.accept '=' with
    | mk equal after =>
      cases equal with
      | true => exact .lexeme _ after
      | false => exact .lexeme _ after

end Lexemes

/-! ## Strict steps and items -/

/-- A step, as a strict step: a lexeme is a token already. -/
def strictStep (c : Cursor) : Step → Strict.Step
  | .skip after => .skip after.bytes
  | .lexeme kind after => .found (.token (c.tokenTo kind after)) after.bytes
  | .fault error after => .found (.error error) after.bytes
  | .finish => .found (.token (c.tokenTo .endOfInput c)) c.bytes

section Items

variable {c : Cursor}

/-- The token up to a later place is there. -/
lemma emit_bytes (h : c.Placed) {d : Cursor} (hd : c.Reaches d) (kind : Kind) :
    Strict.emit c.bytes kind d.bytes = .ok (.found (.token (c.tokenTo kind d)) d.bytes) := by
  rw [Strict.emit, show c.bytes.offset = c.offset from rfl, textSince_bytes h hd]
  rfl

/-- Behind the first slash of a comment the run of moves up to the newline goes on. -/
lemma passWhile_of_pass {p : Char → Bool} {ch : Char} {rest : List Char} (h : c.rest = ch :: rest)
    (hp : p ch = true) : (c.passWhile p).2 = ((c.past [ch] rest).passWhile p).2 := by
  rw [passWhile_eq, passWhile_eq, past_rest, past_past, h, List.takeWhile_cons_of_pos hp,
    List.dropWhile_cons_of_pos hp]
  rfl

/-- A character begins a blank or a comment, or a strict lexeme that is the one of the step.

**Proof sketch.** By the branches of the step. The only one that strict reading takes in another way
is the one for a slash: it is passed by two conditional moves where it begins a comment. -/
lemma gap_or_lexeme_bytes (h : c.Placed) {ch : Char} {text : List Char}
    (hrest : c.rest = ch :: text) :
    (∃ after, c.step = .skip after ∧
        Strict.passGap ch (c.past [ch] text).bytes = .ok (some after.bytes)) ∨
      Strict.passGap ch (c.past [ch] text).bytes = .ok none ∧
        Agree c.step (Strict.lexeme c.bytes ch (c.past [ch] text).bytes) := by
  have hplaced : (c.past [ch] text).Placed := Reaches.placed ⟨[ch], text, hrest, rfl⟩ h
  rw [Strict.passGap, step, next?_of_cons hrest]
  simp only
  by_cases hblank : isBlank ch = true
  · rw [if_pos hblank, if_pos hblank]
    exact .inl ⟨_, rfl, rfl⟩
  rw [if_neg hblank, if_neg hblank]
  by_cases hcomment : ch = '/' ∧ (c.past [ch] text).head? = some '/'
  · obtain ⟨rfl, hhead⟩ := hcomment
    obtain ⟨body, rfl⟩ := List.head?_eq_some_iff.1 (show text.head? = some '/' from hhead)
    have hbody : ((c.past ['/'] ('/' :: body)).past ['/'] body).Placed :=
      Reaches.placed ⟨['/'], body, rfl, rfl⟩ hplaced
    refine .inl ⟨((c.past ['/'] ('/' :: body)).passWhile (· != '\n')).2, ?_, ?_⟩
    · rfl
    · rw [if_pos rfl, accept_bytes hplaced, accept_of_cons (past_rest c ['/'] ('/' :: body)),
        passWhile_of_pass (past_rest c ['/'] ('/' :: body)) (by decide)]
      simp [passWhile_bytes hbody]
  · refine .inr ⟨?_, ?_⟩
    · by_cases hslash : ch = '/'
      · have hstays : (c.past [ch] text).accept '/' = (false, c.past [ch] text) :=
          accept_of_ne fun hhead => hcomment ⟨hslash, hhead⟩
        rw [if_pos hslash, accept_bytes hplaced, hstays]
        rfl
      · rw [if_neg hslash]
        rfl
    · rw [Strict.lexeme]
      by_cases hquote : ch = '\x22'
      · rw [if_pos hquote, if_pos hquote]
        exact stringLexeme_bytes hplaced c.location
      rw [if_neg hquote, if_neg hquote]
      by_cases hdigit : isDigit ch = true
      · rw [if_pos hdigit, if_pos hdigit]
        exact numberLexeme_bytes h hrest hdigit
      rw [if_neg hdigit, if_neg hdigit]
      by_cases hletter : isWordStart ch = true
      · rw [if_pos hletter, if_pos hletter]
        exact wordLexeme_bytes h ⟨[ch], text, hrest, rfl⟩
      rw [if_neg hletter, if_neg hletter, if_neg hcomment]
      cases Operator.ofChar? ch with
      | some op => exact operatorLexeme_bytes hplaced op
      | none => exact .fault _ _

/-- A strict step is a step. -/
theorem step_bytes (h : c.Placed) : Strict.step c.bytes = .ok (c.strictStep c.step) := by
  rw [Strict.step, next_bytes h, ok_bind]
  cases hrest : c.rest with
  | nil =>
    rw [step, next?_of_nil hrest]
    exact emit_bytes h (.refl c) .endOfInput
  | cons ch text =>
    rw [next?_of_cons hrest]
    simp only [Option.map_some, Prod.map, id]
    rcases gap_or_lexeme_bytes h hrest with ⟨after, hstep, hgap⟩ | ⟨hgap, hagree⟩
    · rw [hgap, hstep]
      rfl
    · have hreach := fun d => reaches_of_step (c := c) (d := d)
      rw [hgap, ok_bind]
      simp only
      generalize c.step = s at hagree hreach ⊢
      generalize Strict.lexeme c.bytes ch (c.past [ch] text).bytes = r at hagree ⊢
      cases hagree with
      | lexeme kind after => exact emit_bytes h (hreach after rfl) kind
      | fault error after => rfl

/-- A strict item is an item.

**Proof sketch.** Induction along the blanks and comments that are passed over. -/
theorem nextItem_bytes (h : c.Placed) :
    Strict.nextItem c.bytes = .ok (c.nextItem.map id bytes) := by
  fun_induction nextItem c with
  | case1 c d hstep ih =>
    have hd : d.Placed := (reaches_of_step (by rw [hstep]; rfl)).placed h
    have hstrict := step_bytes h
    rw [hstep, strictStep] at hstrict
    rw [Strict.nextItem]
    split <;> simp_all
  | case2 c kind d hstep | case3 c error d hstep | case4 c hstep =>
    have hstrict := step_bytes h
    rw [hstep, strictStep] at hstrict
    rw [Strict.nextItem]
    split <;> simp_all

/-- Behind an item the offset is still the number of bytes of what is consumed. -/
lemma placed_nextItem (h : c.Placed) : c.nextItem.2.Placed := by
  rcases c.nextItem_cases with ⟨-, hnext⟩ | ⟨-, passed, behind, item, hrest, -, -, hnext⟩
  · rw [hnext]
    exact Reaches.placed ⟨c.rest, [], (List.append_nil _).symm, rfl⟩ h
  · rw [hnext]
    exact Reaches.placed ⟨passed, behind, hrest, rfl⟩ h

end Items

end Cursor

/-! ## Strict scans -/

/-- A scanner by its byte offset alone. -/
def Scanner.strict (s : Scanner) : Strict.Scanner := ⟨s.cursor.bytes, s.finished⟩

/-- A strict scanner yields the items of a scanner. -/
lemma Scanner.take_strict (n : Nat) {s : Scanner} (h : s.cursor.Placed) :
    Strict.Scanner.take n s.strict = .ok ((s.take n).1, (s.take n).2.strict) := by
  induction n generalizing s with
  | zero => rfl
  | succ n ih =>
    rw [Strict.Scanner.take, take, next]
    cases hfinished : s.finished with
    | true => simp [strict, hfinished]
    | false =>
      have hitem : Strict.nextItem s.strict.cursor = _ := Cursor.nextItem_bytes h
      have hothers := ih (s := ⟨s.cursor.nextItem.2, s.cursor.nextItem.1.isEnd⟩)
        (Cursor.placed_nextItem h)
      simp only [strict] at hothers hitem ⊢
      simp [hfinished, hitem, hothers]

/-- The cursor at the start of a text is the one at offset zero. -/
lemma Scanner.strict_ofString (source : String) :
    (ofString source).strict = ⟨.ofString source, false⟩ := by
  simp [strict, ofString, Cursor.bytes, Cursor.ofString, Cursor.ofList, Cursor.source,
    ByteCursor.ofString]

/-- **A strict scanner never fails.** It is a scanner that keeps the source and a byte offset. All
that it looks at it cuts out of the source: what is ahead of it, before each move and each look
ahead, and the text of each lexeme and of the body of each string; and it reads the value of a
number from such a text. It fails where a cut is not there, or where the text stands for no number.
In any number of calls it does not fail; it yields the items that are yielded by a scanner that
keeps the parts of the source, and comes to the same place, and so its scan of the source is the
scan. That a cut is there says that its offsets lie between characters of the source, the first one
not behind the second one, and that it is what stands between them; that a text stands for a number
says that it has the form of one.

**Proof sketch.** A call goes from place to place behind the characters that it passes, and the
offset always is the number of bytes of what is consumed. So each cut is what is ahead, or what was
passed since an earlier place. Behind the rest of a number this is the number. -/
theorem scan_never_misreads (source : String) :
    (∀ n, Strict.Scanner.take n ⟨.ofString source, false⟩ =
      .ok (((Scanner.ofString source).take n).1, ((Scanner.ofString source).take n).2.strict)) ∧
    Strict.scan source = .ok (scan source) ∧
    (∀ first last text, Strict.cut source first last = .ok text ↔
      ∃ before behind, source = before ++ text ++ behind ∧ before.utf8ByteSize = first ∧
        (before ++ text).utf8ByteSize = last) ∧
    ∀ text, (∃ value, Strict.readNumber text = .ok value) ↔ IsNumber text.toList := by
  have htake : ∀ n, Strict.Scanner.take n ⟨.ofString source, false⟩ =
      .ok (((Scanner.ofString source).take n).1, ((Scanner.ofString source).take n).2.strict) := by
    intro n
    rw [← Scanner.strict_ofString]
    exact Scanner.take_strict n rfl
  refine ⟨htake, ?_, cut_eq_ok_iff source, exists_readNumber_iff⟩
  rw [Strict.scan, htake]
  rfl

end LoxLex
