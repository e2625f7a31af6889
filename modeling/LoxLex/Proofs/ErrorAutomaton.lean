import LoxLex.Proofs.Placement

set_option relaxedAutoImplicit false
set_option autoImplicit false

/-!
# Errors by an automaton

What is wrong with a text can be told without its tokens. An automaton with four modes reads the
text one character at a time and looks neither ahead nor back: it knows whether it is in a string,
in a comment, behind a slash that may begin one, or elsewhere. It reports each character without a
use that it reads outside strings and comments, and at the end a string that is still open.

## Main definitions

* `LoxLex.Mode`, `LoxLex.Mode.next`, `LoxLex.Mode.run` — the automaton.
* `LoxLex.isKnown` — the characters that have a use outside strings and comments.
* `LoxLex.Mode.strays` — the characters that the automaton reports.
* `LoxLex.IsLastOpening` — the quote that opens the last string.
* `LoxLex.Mode.Settled` — the modes that an automaton may be in between two pieces.

## Main results

* `LoxLex.Leads.settled`, `LoxLex.Leads.strays_eq` — what the automaton does over one piece.
* `LoxLex.Splits.errors_cases` — what it does over all pieces of a text.
* `LoxLex.errors_eq_automaton_reports` — its reports are the errors of a scan.
-/

namespace LoxLex

/-! ## The automaton -/

/-- What the automaton knows of the text that it has read. -/
inductive Mode where
  | code
  /-- Behind a slash that begins a comment if another one follows. -/
  | slash
  | comment
  | string
deriving DecidableEq

namespace Mode

/-- The mode after one more character. -/
def next : Mode → Char → Mode
  | code, ch => if ch = '\x22' then string else if ch = '/' then slash else code
  | slash, ch => if ch = '/' then comment else if ch = '\x22' then string else code
  | comment, ch => if ch = '\n' then code else comment
  | string, ch => if ch = '\x22' then code else string

/-- The mode after a text. -/
def run (m : Mode) (text : List Char) : Mode := text.foldl next m

/-- Whether characters are read as code, that is outside strings and comments. -/
def readsCode : Mode → Bool
  | code | slash => true
  | comment | string => false

end Mode

/-- A character that has a use outside strings and comments: a blank, a letter, a digit, the
underscore, the quote, or a character of an operator. -/
def isKnown (ch : Char) : Bool :=
  isBlank ch || isWordPart ch || "\x22\x7b\x7d(),.;+-*%/!=<>".toList.contains ch

namespace Mode

/-- The report on a character that stands at `l`, if it has no use there. -/
def stray? (m : Mode) (l : Location) (ch : Char) : Option LexError :=
  if m.readsCode && !isKnown ch then some (.unexpectedCharacter ch ⟨l, l.step ch⟩) else none

/-- The reports on the characters of a text that begins at a location, in their order. -/
def strays : Mode → Location → List Char → List LexError
  | _, _, [] => []
  | m, l, ch :: text => (m.stray? l ch).toList ++ strays (m.next ch) (l.step ch) text

/-- A text may be read in two parts. -/
lemma run_append (m : Mode) (a b : List Char) : m.run (a ++ b) = (m.run a).run b :=
  List.foldl_append

/-- So are the characters of the two parts reported. -/
lemma strays_append (m : Mode) (l : Location) (a b : List Char) :
    m.strays l (a ++ b) = m.strays l a ++ (m.run a).strays (l.after a) b := by
  induction a generalizing m l with
  | nil => rfl
  | cons ch a ih => simp [strays, run, ih]

/-- No report on a character is an open string. -/
lemma not_wantsMore_of_mem_strays {m : Mode} {l : Location} {text : List Char} {e : LexError}
    (h : e ∈ m.strays l text) : e.wantsMore = false := by
  induction text generalizing m l with
  | nil => cases h
  | cons ch text ih =>
    rcases List.mem_append.1 h with hch | htext
    · simp only [stray?] at hch
      split at hch
      · obtain rfl := List.mem_singleton.1 hch
        rfl
      · cases hch
    · exact ih htext

end Mode

/-- The quote behind `before` opens a string of the source. -/
def Opens (source before : List Char) : Prop :=
  before ++ ['\x22'] <+: source ∧ (Mode.code.run before).readsCode = true

/-- The quote behind `before` opens a string of the source, and no later quote does. -/
structure IsLastOpening (source before : List Char) : Prop where
  opens : Opens source before
  last : ∀ other, Opens source other → other.length ≤ before.length

/-- A quote outside strings and comments with no other quote behind it is the last one that opens
a string. -/
lemma isLastOpening_of_not_mem {before body : List Char} (hbody : '\x22' ∉ body)
    (hcode : (Mode.code.run before).readsCode = true) :
    IsLastOpening (before ++ '\x22' :: body) before where
  opens := ⟨⟨body, by simp⟩, hcode⟩
  last := by
    rintro other ⟨⟨tail, htail⟩, -⟩
    rw [List.append_assoc] at htail
    rcases List.append_eq_append_iff.1 htail with ⟨a, rfl, -⟩ | ⟨a, rfl, ha⟩
    · simp
    · cases a with
      | nil => simp
      | cons ch a =>
        obtain ⟨-, rfl⟩ : '\x22' = ch ∧ body = a ++ '\x22' :: tail := by simpa using ha
        exact absurd (by simp) hbody

/-! ## Characters with a use -/

/-- The characters that are operators. -/
private lemma ofChar?_isSome_iff (ch : Char) :
    (Operator.ofChar? ch).isSome = true ↔ ch ∈ "\x7b\x7d(),.;+-*%/!=<>".toList := by
  constructor
  · have single : ∀ op ∈ Operator.all, op.spelling.length = 1 →
        op.spelling.headD ' ' ∈ "\x7b\x7d(),.;+-*%/!=<>".toList := by decide
    intro h
    obtain ⟨op, hop⟩ := Option.isSome_iff_exists.1 h
    have hspell := (Operator.ofChar?_eq_some_iff ch op).1 hop
    simpa only [hspell, List.headD_cons] using single op op.mem_all (by rw [hspell]; rfl)
  · have found : ("\x7b\x7d(),.;+-*%/!=<>".toList.all fun ch => (Operator.ofChar? ch).isSome) =
        true := by decide
    exact List.all_eq_true.1 found ch

/-- The characters without a use are those that begin nothing. -/
lemma isKnown_eq_false_iff (ch : Char) : isKnown ch = false ↔ classOf ch = .stray := by
  have marks : "\x22\x7b\x7d(),.;+-*%/!=<>".toList.contains ch =
      (decide (ch = '\x22') || (Operator.ofChar? ch).isSome) := by
    rw [Bool.eq_iff_iff, Bool.or_eq_true, ofChar?_isSome_iff, decide_eq_true_iff,
      List.contains_iff_mem]
    exact List.mem_cons
  rw [isKnown, marks, isWordPart, classOf]
  cases isBlank ch <;> cases isDigit ch <;> cases isWordStart ch <;> by_cases ch = '\x22' <;>
    cases (Operator.ofChar? ch).isSome <;> simp_all

/-- The characters of words have a use. -/
private lemma isKnown_of_isWordPart {ch : Char} (h : isWordPart ch = true) : isKnown ch = true := by
  simp [isKnown, h]

/-- The characters of numbers have a use. -/
private lemma IsNumber.isKnown {text : List Char} (h : IsNumber text) :
    ∀ ch ∈ text, isKnown ch = true := by
  have digit : ∀ ch, isDigit ch = true → LoxLex.isKnown ch = true := fun ch hch =>
    isKnown_of_isWordPart (by rw [isWordPart, hch, Bool.or_true])
  rcases h with ⟨-, hall⟩ | ⟨whole, fraction, hwhole, hfraction, rfl⟩
  · exact fun ch hch => digit ch (hall ch hch)
  · intro ch hch
    rcases List.mem_append.1 hch with hch | hch
    · exact digit ch (hwhole.2 ch hch)
    · rcases List.mem_cons.1 hch with rfl | hch
      · decide
      · exact digit ch (hfraction.2 ch hch)

/-- Strings apart, the characters of lexemes have a use. -/
private lemma IsLexeme.isKnown {kind : Kind} {text : List Char} (h : IsLexeme kind text)
    (hquote : kind.frontClass ≠ .quote) : ∀ ch ∈ text, isKnown ch = true := by
  cases h with
  | operator op =>
    have marks : ∀ op ∈ Operator.all, op.spelling.all LoxLex.isKnown = true := by decide
    exact List.all_eq_true.1 (marks op op.mem_all)
  | string => exact absurd rfl hquote
  | number h => exact h.isKnown
  | keyword h | identifier h =>
    obtain ⟨first, others, rfl, hfirst, hothers⟩ := h
    intro ch hch
    rcases List.mem_cons.1 hch with rfl | hch
    · exact isKnown_of_isWordPart (by rw [isWordPart, hfirst, Bool.true_or])
    · exact isKnown_of_isWordPart (hothers ch hch)

/-! ## The automaton over one piece -/

namespace Mode

variable {l : Location}

/-- Characters that lead to no other mode may be many. -/
private lemma run_of_stays {m : Mode} {text : List Char} (h : ∀ ch ∈ text, m.next ch = m) :
    m.run text = m := by
  induction text with
  | nil => rfl
  | cons ch text ih =>
    obtain ⟨hch, htext⟩ := List.forall_mem_cons.1 h
    rw [run, List.foldl_cons, hch]
    exact ih htext

/-- Nothing is reported as long as the automaton stays in a string or in a comment. -/
private lemma strays_of_stays {m : Mode} {text : List Char} (hm : m.readsCode = false)
    (h : ∀ ch ∈ text, m.next ch = m) : m.strays l text = [] := by
  induction text generalizing l with
  | nil => rfl
  | cons ch text ih =>
    obtain ⟨hch, htext⟩ := List.forall_mem_cons.1 h
    rw [strays, hch, ih htext, stray?, hm]
    rfl

/-- Characters with a use are not reported in any mode. -/
private lemma strays_of_isKnown {m : Mode} {text : List Char}
    (h : ∀ ch ∈ text, isKnown ch = true) : m.strays l text = [] := by
  induction text generalizing m l with
  | nil => rfl
  | cons ch text ih =>
    obtain ⟨hch, htext⟩ := List.forall_mem_cons.1 h
    rw [strays, ih htext, stray?, hch]
    simp

/-- Plain characters do not lead out of the code. -/
private lemma code_next_of_isPlain {ch : Char} (h : IsPlain ch) : Mode.code.next ch = .code := by
  rw [next, if_neg h.2.1, if_neg h.2.2]

/-- A blank does not lead out of the code. -/
private lemma code_next_of_isBlank {ch : Char} (h : isBlank ch = true) :
    Mode.code.next ch = .code := by
  have hquote : ch ≠ '\x22' := by
    rintro rfl
    exact absurd h (by decide)
  have hslash : ch ≠ '/' := by
    rintro rfl
    exact absurd h (by decide)
  rw [next, if_neg hquote, if_neg hslash]

/-- Only a quote leads out of a string. -/
private lemma string_stays {body : List Char} (h : '\x22' ∉ body) :
    ∀ ch ∈ body, Mode.string.next ch = .string := by
  intro ch hch
  rw [next, if_neg]
  rintro rfl
  exact h hch

/-- Only a newline leads out of a comment. -/
private lemma comment_stays {body : List Char} (h : '\n' ∉ body) :
    ∀ ch ∈ body, Mode.comment.next ch = .comment := by
  intro ch hch
  rw [next, if_neg]
  rintro rfl
  exact h hch

/-- The modes that the automaton may be in between two pieces. It does not know that a slash, or a
comment, has ended until it reads what comes next; but that is read as if it already knew. -/
inductive Settled : Mode → List Char → Prop where
  | code {rest : List Char} : Settled .code rest
  | slash {rest : List Char} (h : rest.head? ≠ some '/') : Settled .slash rest
  | comment {rest : List Char} (h : ∀ ch, rest.head? = some ch → ch = '\n') :
    Settled .comment rest

/-- Between two pieces the automaton is not in a string. -/
lemma Settled.ne_string {m : Mode} {rest : List Char} (h : m.Settled rest) : m ≠ .string := by
  cases h <;> simp

/-- What comes next leads to the same mode as in code, and the same is reported. -/
lemma Settled.eq_code {m : Mode} {text rest : List Char} (h : m.Settled (text ++ rest))
    (hne : text ≠ []) :
    m.run text = Mode.code.run text ∧ m.strays l text = Mode.code.strays l text := by
  obtain ⟨ch, text, rfl⟩ := List.exists_cons_of_ne_nil hne
  suffices hfirst : m.next ch = Mode.code.next ch ∧ m.stray? l ch = Mode.code.stray? l ch by
    simp only [run, strays, List.foldl_cons, hfirst, and_self]
  cases h with
  | code => exact ⟨rfl, rfl⟩
  | slash h =>
    have hslash : ch ≠ '/' := by simpa using h
    exact ⟨by simp only [next, if_neg hslash], rfl⟩
  | comment h =>
    obtain rfl : ch = '\n' := h ch rfl
    exact ⟨by decide, by simp [stray?, readsCode, show isKnown '\n' = true by decide]⟩

/-- An automaton that is not in a string enters a string that is left open, and does not leave it. -/
lemma Settled.openString {m : Mode} {body : List Char} (h : m.Settled ('\x22' :: body))
    (hbody : '\x22' ∉ body) (l : Location) :
    m.readsCode = true ∧ m.run ('\x22' :: body) = .string ∧ m.strays l ('\x22' :: body) = [] := by
  have hcode : m.readsCode = true := by
    cases h with
    | comment h => exact absurd (h '\x22' rfl) (by decide)
    | _ => rfl
  replace h : m.Settled ('\x22' :: body ++ []) := by rwa [List.append_nil]
  obtain ⟨hrun, hstrays⟩ := h.eq_code (l := l) (List.cons_ne_nil _ _)
  rw [hrun, hstrays]
  exact ⟨hcode, run_of_stays (m := .string) (string_stays hbody),
    strays_of_stays (m := .string) rfl (string_stays hbody)⟩

end Mode

/-- Behind a piece that is no open string the automaton is settled again.

**Proof sketch.** By the form of the piece. Behind a slash it waits for a second one, which does not
follow; behind a comment it waits for the end of the line, which is next; all other pieces leave it
in code. -/
lemma Leads.settled {m : Mode} {p : Piece} {rest : List Char} (h : Leads p rest)
    (hm : m.Settled (p.text ++ rest)) (hclosed : p.role ≠ .openString) :
    (m.run p.text).Settled rest := by
  rw [(hm.eq_code (l := Location.start) h.text_ne_nil).1]
  cases h with
  | @blank ch _ hch =>
    have stays : ∀ c ∈ [ch], Mode.code.next c = .code := by
      simpa using Mode.code_next_of_isBlank hch
    rw [Mode.run_of_stays stays]
    exact .code
  | comment hcomment hend =>
    obtain ⟨body, rfl, hbody⟩ := hcomment
    show (Mode.comment.run body).Settled rest
    rw [Mode.run_of_stays (Mode.comment_stays hbody)]
    exact .comment hend
  | @stray ch _ hch =>
    have stays : ∀ c ∈ [ch], Mode.code.next c = .code := by
      simpa using Mode.code_next_of_isPlain (isPlain_of_classOf (.inr (.inr hch)))
    rw [Mode.run_of_stays stays]
    exact .code
  | openString => exact absurd rfl hclosed
  | @lexeme kind text _ hlexeme hend =>
    by_cases hquote : kind.frontClass = .quote
    · cases hlexeme with
      | @string body hbody =>
        show (Mode.string.run (body ++ ['\x22'])).Settled rest
        rw [Mode.run_append, Mode.run_of_stays (Mode.string_stays hbody)]
        exact .code
      | _ => cases hquote
    by_cases hslash : kind = .operator .slash
    · subst hslash
      cases hlexeme
      exact .slash (hend.2 rfl)
    · have stays : ∀ c ∈ text, Mode.code.next c = .code := fun c hc =>
        Mode.code_next_of_isPlain (hlexeme.isPlain hquote hslash c hc)
      show (Mode.code.run text).Settled rest
      rw [Mode.run_of_stays stays]
      exact .code

/-- Over a piece that is no open string the automaton reports what is wrong with the piece.

**Proof sketch.** By the form of the piece. Only in a string or a comment can there be characters
without a use that are not reported; a piece that is an error consists of one such character. -/
lemma Leads.strays_eq {m : Mode} {p : Piece} {rest : List Char} {l : Location} (h : Leads p rest)
    (hm : m.Settled (p.text ++ rest)) (hclosed : p.role ≠ .openString) :
    m.strays l p.text = ((p.item? l).bind Item.error?).toList := by
  rw [(hm.eq_code h.text_ne_nil).2]
  cases h with
  | @blank ch _ hch =>
    refine Mode.strays_of_isKnown fun c hc => ?_
    obtain rfl := List.mem_singleton.1 hc
    rw [isKnown, hch, Bool.true_or, Bool.true_or]
  | comment hcomment hend =>
    obtain ⟨body, rfl, hbody⟩ := hcomment
    exact Mode.strays_of_stays (m := .comment) rfl (Mode.comment_stays hbody)
  | @stray ch _ hch =>
    have hunknown : isKnown ch = false := (isKnown_eq_false_iff ch).2 hch
    simp [Mode.strays, Mode.stray?, Mode.readsCode, hunknown, Piece.item?, Item.error?]
  | openString => exact absurd rfl hclosed
  | @lexeme kind text _ hlexeme hend =>
    by_cases hquote : kind.frontClass = .quote
    · cases hlexeme with
      | @string body hbody =>
        show Mode.string.strays (l.step '\x22') (body ++ ['\x22']) = []
        rw [Mode.strays_append, Mode.run_of_stays (Mode.string_stays hbody),
          Mode.strays_of_stays rfl (Mode.string_stays hbody)]
        rfl
      | _ => cases hquote
    · exact Mode.strays_of_isKnown (hlexeme.isKnown hquote)

/-! ## The automaton over a text -/

/-- The errors of the pieces of a text are what the automaton reports, with an open string behind
them if the automaton ends in a string.

**Proof sketch.** Induction on the pieces. Over each of them the automaton reports what is wrong
with it, and is settled again; a string that is left open is the last piece, and the automaton
does not leave it any more. -/
theorem Splits.errors_cases {text : List Char} {ps : List Piece} (h : Splits text ps) {m : Mode}
    (hm : m.Settled text) (l : Location) :
    (m.run text ≠ .string ∧ (Scan.ofItems (place l ps)).errors = m.strays l text) ∨
      (m.run text = .string ∧ ∃ before body, text = before ++ '\x22' :: body ∧ '\x22' ∉ body ∧
        (m.run before).readsCode = true ∧
        (Scan.ofItems (place l ps)).errors =
          m.strays l text ++ [.unterminatedString ⟨l.after before, l.after text⟩]) := by
  induction h generalizing m l with
  | nil => exact .inl ⟨hm.ne_string, rfl⟩
  | @cons p rest ps hlead hs ih =>
    by_cases hopen : p.role = .openString
    · cases hlead with
      | @openString body hbody =>
        obtain rfl := hs.eq_nil
        rw [List.append_nil] at hm ⊢
        obtain ⟨hcode, hrun, hstrays⟩ := Mode.Settled.openString hm hbody l
        refine .inr ⟨hrun, [], body, rfl, hbody, hcode, ?_⟩
        show _ = m.strays l ('\x22' :: body) ++ _
        rw [hstrays]
        rfl
      | _ => cases hopen
    · rw [Mode.run_append, Mode.strays_append, errors_place_cons, hlead.strays_eq hm hopen]
      rcases ih (hlead.settled hm hopen) (l.after p.text) with
        ⟨hrun, herrors⟩ | ⟨hrun, before, body, rfl, hbody, hcode, herrors⟩
      · exact .inl ⟨hrun, by rw [herrors]⟩
      · refine .inr ⟨hrun, p.text ++ before, body, by simp, hbody, ?_, ?_⟩
        · rwa [Mode.run_append]
        · simp only [herrors, Location.after_append, List.append_assoc]

/-- **The errors of a text are the reports of an automaton.** The scan of a text reports each
character without a use that the automaton reads outside strings and comments, in the order of the
text and each with the span of this character. If the automaton ends in a string, one more error
follows, for the string from the last opening quote to the end of the text; otherwise there is no
other error. So more text could mend the scan just if the automaton ends in a string and has
reported no character.

**Proof sketch.** The automaton starts in code, where it may be in front of the pieces of a text.
It ends in a string just if the last piece is a string that is left open, and then the quote of
this piece is the last opening one, for no other quote is behind it. -/
theorem errors_eq_automaton_reports (source : String) :
    ((Mode.code.run source.toList ≠ .string ∧
          (scan source).errors = Mode.code.strays Location.start source.toList) ∨
        (Mode.code.run source.toList = .string ∧
          ∃ before, IsLastOpening source.toList before ∧
            (scan source).errors = Mode.code.strays Location.start source.toList ++
              [.unterminatedString
                ⟨Location.start.after before, Location.start.after source.toList⟩])) ∧
      ((scan source).wantsMore = true ↔
        Mode.code.run source.toList = .string ∧
          Mode.code.strays Location.start source.toList = []) := by
  obtain ⟨ps, hps⟩ := exists_splits source.toList
  rw [Scan.wantsMore, LexError.listWantsMore_iff, scan_of_splits hps]
  rcases hps.errors_cases .code Location.start with
    ⟨hrun, herrors⟩ | ⟨hrun, before, body, hsource, hbody, hcode, herrors⟩
  · rw [herrors]
    refine ⟨.inl ⟨hrun, rfl⟩, ?_⟩
    simp only [hrun, false_and, iff_false]
    rintro ⟨span, hlone⟩
    have hnot := Mode.not_wantsMore_of_mem_strays (hlone ▸ List.mem_singleton_self _)
    cases hnot
  · rw [herrors]
    refine ⟨.inr ⟨hrun, before, hsource ▸ isLastOpening_of_not_mem hbody hcode, rfl⟩, ?_⟩
    simp only [hrun, true_and]
    constructor
    · rintro ⟨span, hlone⟩
      cases hstrays : Mode.code.strays Location.start source.toList with
      | nil => rfl
      | cons e others => simp [hstrays] at hlone
    · rintro hstrays
      exact ⟨_, by rw [hstrays]; rfl⟩

end LoxLex
