import LoxLex.Proofs.CursorMoves
import LoxLex.Proofs.Lexemes
import LoxLex.Step

set_option relaxedAutoImplicit false
set_option autoImplicit false

/-!
# The piece at the front of a text

A text begins with a blank, a comment, a lexeme, a character of no use, or a string that is never
closed. Which of these it is, and how far it goes, depends on the piece itself and on at most two
characters behind it. `LoxLex.Leads` says so without a cursor, and a step of a cursor passes
exactly the piece at the front of what is ahead of it.

## Main definitions

* `LoxLex.Piece` — a stretch of text with its role.
* `LoxLex.Kind.EndsBefore` — what may stand behind a lexeme.
* `LoxLex.Leads` — a piece is the front of a text.

## Main results

* `LoxLex.exists_leads` — every text that is not empty has a piece at its front.
* `LoxLex.Cursor.step_of_leads` — a step passes the piece at the front.
-/

namespace LoxLex

/-- What a piece of a text is. -/
inductive Role where
  /-- A blank or a comment. -/
  | gap
  /-- A lexeme of the given kind. -/
  | lexeme (kind : Kind)
  /-- A character that begins nothing. -/
  | stray (ch : Char)
  /-- A string without its closing quote. -/
  | openString
deriving DecidableEq

/-- A stretch of text with its role. -/
structure Piece where
  /-- What it is. -/
  role : Role
  /-- Its characters. -/
  text : List Char
deriving DecidableEq

/-- What may stand behind a lexeme, for it not to go on: nothing that makes a longer operator, a
comment, a longer number or a longer word of it. -/
def Kind.EndsBefore (text rest : List Char) : Kind → Prop
  | .operator op =>
    (op.withEqual? ≠ none → rest.head? ≠ some '=') ∧ (op = .slash → rest.head? ≠ some '/')
  | .literal (.string _) => True
  | .literal (.number _) =>
    (∀ ch, rest.head? = some ch → isDigit ch = false) ∧
      ('.' ∉ text → ∀ ch others, rest = '.' :: ch :: others → isDigit ch = false)
  | .identifier | .keyword _ => ∀ ch, rest.head? = some ch → isWordPart ch = false
  | .endOfInput => True

/-- The text that consists of a piece and the given rest has the piece at its front. -/
inductive Leads : Piece → List Char → Prop where
  | blank {ch : Char} {rest : List Char} (h : isBlank ch = true) : Leads ⟨.gap, [ch]⟩ rest
  | comment {text rest : List Char} (h : IsComment text)
    (hend : ∀ ch, rest.head? = some ch → ch = '\n') : Leads ⟨.gap, text⟩ rest
  | lexeme {kind : Kind} {text rest : List Char} (h : IsLexeme kind text)
    (hend : kind.EndsBefore text rest) : Leads ⟨.lexeme kind, text⟩ rest
  | stray {ch : Char} {rest : List Char} (h : classOf ch = .stray) : Leads ⟨.stray ch, [ch]⟩ rest
  | openString {body : List Char} (h : '\x22' ∉ body) : Leads ⟨.openString, '\x22' :: body⟩ []

/-- No piece is empty. -/
lemma Leads.text_ne_nil {p : Piece} {rest : List Char} (h : Leads p rest) : p.text ≠ [] := by
  cases h with
  | comment h hend => obtain ⟨body, rfl, -⟩ := h; simp
  | lexeme h hend => obtain ⟨ch, others, rfl, -⟩ := h.front; simp
  | _ => simp

/-! ## Every text has a front -/

/-- Every text begins with a longest run of characters that satisfy a condition. -/
lemma exists_run (p : Char → Bool) (text : List Char) :
    ∃ run rest, text = run ++ rest ∧ (∀ ch ∈ run, p ch = true) ∧
      ∀ ch, rest.head? = some ch → p ch = false := by
  refine ⟨text.takeWhile p, text.dropWhile p, List.takeWhile_append_dropWhile.symm,
    fun ch => List.mem_takeWhile_imp, fun ch hch => ?_⟩
  have hne := List.head?_dropWhile_not p text
  rw [hch] at hne
  simpa using hne

/-- A text behind a quote has a closing quote, or it has no quote. -/
lemma exists_close (text : List Char) :
    '\x22' ∉ text ∨ ∃ body rest, text = body ++ '\x22' :: rest ∧ '\x22' ∉ body := by
  obtain ⟨body, rest, rfl, hbody, hrest⟩ := exists_run (· != '\x22') text
  have hnot : '\x22' ∉ body := fun hq => by simpa using hbody _ hq
  cases rest with
  | nil => exact .inl (by simpa using hnot)
  | cons ch rest =>
    obtain rfl : ch = '\x22' := by simpa using hrest ch rfl
    exact .inr ⟨body, rest, rfl, hnot⟩

/-- A text that begins with a digit begins with a number that ends there.

**Proof sketch.** Take the run of digits. Where a point and a digit follow it, take these and the
second run of digits as well. -/
lemma exists_number {ch : Char} (h : isDigit ch = true) (text : List Char) :
    ∃ number rest, ch :: text = number ++ rest ∧ IsNumber number ∧
      (∀ next, rest.head? = some next → isDigit next = false) ∧
      ('.' ∉ number → ∀ next others, rest = '.' :: next :: others → isDigit next = false) := by
  obtain ⟨run, rest, rfl, hrun, hstop⟩ := exists_run isDigit text
  have whole : IsDigits (ch :: run) := ⟨by simp, by simpa using ⟨h, hrun⟩⟩
  by_cases hpoint : ∃ digit others, rest = '.' :: digit :: others ∧ isDigit digit = true
  · obtain ⟨digit, others, rfl, hdigit⟩ := hpoint
    obtain ⟨run', rest', rfl, hrun', hstop'⟩ := exists_run isDigit others
    have fraction : IsDigits (digit :: run') := ⟨by simp, by simpa using ⟨hdigit, hrun'⟩⟩
    refine ⟨ch :: run ++ '.' :: (digit :: run'), rest', by simp,
      .inr ⟨_, _, whole, fraction, rfl⟩, hstop', fun hnot => ?_⟩
    simp at hnot
  · refine ⟨ch :: run, rest, by simp, .inl whole, hstop, fun _ next others heq => ?_⟩
    cases hnext : isDigit next with
    | false => rfl
    | true => exact absurd ⟨next, others, heq, hnext⟩ hpoint

/-- A word is a keyword or an identifier. -/
private lemma exists_word_kind {text : List Char} (h : IsWord text) :
    ∃ kind : Kind, IsLexeme kind text ∧ kind.frontClass = .letter := by
  by_cases hword : ∃ word : Keyword, word.spelling = String.ofList text
  · obtain ⟨word, hword⟩ := hword
    exact ⟨_, .keyword h hword, rfl⟩
  · exact ⟨_, .identifier h fun word hw => hword ⟨word, hw⟩, rfl⟩

/-- The end of a word is read off the class of its kind. -/
private lemma Kind.endsBefore_of_letter {kind : Kind} {text rest : List Char}
    (hkind : kind.frontClass = .letter)
    (h : ∀ ch, rest.head? = some ch → isWordPart ch = false) : kind.EndsBefore text rest := by
  cases kind with
  | identifier | keyword word => exact h
  | literal value => cases value <;> cases hkind
  | _ => cases hkind

/-- A text that begins with an operator has an operator or a comment at its front. -/
private lemma exists_leads_of_mark {ch : Char} {op : Operator} (hop : op.spelling = [ch])
    (text : List Char) : ∃ p rest, ch :: text = p.text ++ rest ∧ Leads p rest := by
  by_cases hslash : op = .slash ∧ text.head? = some '/'
  · obtain ⟨rfl, hhead⟩ := hslash
    obtain ⟨text, rfl⟩ := List.head?_eq_some_iff.1 hhead
    obtain rfl : '/' = ch := by simpa [Operator.spelling] using hop
    obtain ⟨body, rest, rfl, hbody, hstop⟩ := exists_run (· != '\n') text
    refine ⟨⟨.gap, '/' :: '/' :: body⟩, rest, rfl, .comment ⟨body, rfl, ?_⟩ ?_⟩
    · intro hn
      simpa using hbody _ hn
    · intro c hc
      simpa using hstop c hc
  · by_cases hequal : op.withEqual? ≠ none ∧ text.head? = some '='
    · obtain ⟨hlonger, hhead⟩ := hequal
      obtain ⟨longer, hlonger⟩ := Option.ne_none_iff_exists'.1 hlonger
      obtain ⟨text, rfl⟩ := List.head?_eq_some_iff.1 hhead
      have hspell := (Operator.withEqual?_eq_some_iff op longer).1 hlonger
      rw [hop] at hspell
      refine ⟨⟨.lexeme (.operator longer), longer.spelling⟩, text, by simp [hspell],
        .lexeme (.operator longer) ?_⟩
      have last : longer.withEqual? = none ∧ longer ≠ .slash := by
        cases longer <;> simp [Operator.spelling] at hspell <;> decide
      exact ⟨fun hne => absurd last.1 hne, fun hs => absurd hs last.2⟩
    · refine ⟨⟨.lexeme (.operator op), op.spelling⟩, text, by simp [hop],
        .lexeme (.operator op) ⟨fun hne hhead => hequal ⟨hne, hhead⟩,
          fun hs hhead => hslash ⟨hs, hhead⟩⟩⟩

/-- Every text that is not empty has a piece at its front.

**Proof sketch.** By the class of the first character. A quote begins a string, closed or not; a
digit a number; a letter a word; a mark an operator or a comment. -/
lemma exists_leads {text : List Char} (h : text ≠ []) :
    ∃ p rest, text = p.text ++ rest ∧ Leads p rest := by
  obtain ⟨ch, text, rfl⟩ := List.exists_cons_of_ne_nil h
  by_cases hblank : isBlank ch = true
  · exact ⟨⟨.gap, [ch]⟩, text, rfl, .blank hblank⟩
  by_cases hquote : ch = '\x22'
  · subst hquote
    rcases exists_close text with hopen | ⟨body, rest, rfl, hbody⟩
    · exact ⟨⟨.openString, '\x22' :: text⟩, [], by simp, .openString hopen⟩
    · exact ⟨⟨_, '\x22' :: (body ++ ['\x22'])⟩, rest, by simp, .lexeme (.string hbody) trivial⟩
  by_cases hdigit : isDigit ch = true
  · obtain ⟨number, rest, heq, hnumber, hend⟩ := exists_number hdigit text
    obtain ⟨value, hvalue⟩ := hnumber.exists_value
    exact ⟨⟨_, number⟩, rest, heq, .lexeme (.number hnumber hvalue) hend⟩
  by_cases hletter : isWordStart ch = true
  · obtain ⟨run, rest, rfl, hrun, hstop⟩ := exists_run isWordPart text
    obtain ⟨kind, hkind, hclass⟩ := exists_word_kind ⟨ch, run, rfl, hletter, hrun⟩
    exact ⟨⟨.lexeme kind, ch :: run⟩, rest, rfl,
      .lexeme hkind (Kind.endsBefore_of_letter hclass hstop)⟩
  cases hmark : Operator.ofChar? ch with
  | some op => exact exists_leads_of_mark ((Operator.ofChar?_eq_some_iff ch op).1 hmark) text
  | none =>
    refine ⟨⟨.stray ch, [ch]⟩, text, rfl, .stray ?_⟩
    simp [classOf, hblank, hquote, hdigit, hletter, hmark]

/-! ## A step passes the front -/

/-- The step over a piece that stands in front of a cursor. -/
def Piece.step (c : Cursor) (p : Piece) (rest : List Char) : Step :=
  let after := c.past p.text rest
  match p.role with
  | .gap => .skip after
  | .lexeme kind => .lexeme kind after
  | .stray ch => .fault (.unexpectedCharacter ch ⟨c.location, after.location⟩) after
  | .openString => .fault (.unterminatedString ⟨c.location, after.location⟩) after

namespace Cursor

section Steps

variable {c : Cursor}

/-- No character of a text without quotes ends a string. -/
private lemma ne_quote_of_not_mem {body : List Char} (h : '\x22' ∉ body) :
    ∀ ch ∈ body, (ch != '\x22') = true := by
  intro ch hch
  simpa using fun heq : ch = '\x22' => h (heq ▸ hch)

/-- The rest of a string goes on to the next quote. -/
private lemma stringLexeme_of_close {start : Location} {body rest : List Char}
    (h : c.rest = body ++ '\x22' :: rest) (hbody : '\x22' ∉ body) :
    c.stringLexeme start =
      .lexeme (.literal (.string (String.ofList body))) (c.past (body ++ ['\x22']) rest) := by
  have run := passWhile_of_run h (ne_quote_of_not_mem hbody) (by simp)
  simp only [stringLexeme, run, accept_of_cons (past_rest c body ('\x22' :: rest)), past_past,
    textSince_past]

/-- The rest of a string without a further quote goes on to the end. -/
private lemma stringLexeme_of_open {start : Location} (h : '\x22' ∉ c.rest) :
    c.stringLexeme start =
      .fault (.unterminatedString ⟨start, c.location.after c.rest⟩) (c.past c.rest []) := by
  have run := passWhile_of_run (c := c) (List.append_nil _).symm (ne_quote_of_not_mem h) (by simp)
  have stays : (c.past c.rest []).accept '\x22' = (false, c.past c.rest []) :=
    accept_of_ne (by simp)
  simp only [stringLexeme, run, stays, past_location]

/-- The rest of a number is passed up to its end.

**Proof sketch.** The first run of moves passes the digits up to the point or to the end. Where
there is a point with a digit behind it, one move and a second run pass the fraction. -/
lemma afterNumber_of_isNumber {first : Char} {others rest : List Char}
    (h : c.rest = others ++ rest) (hnumber : IsNumber (first :: others))
    (hstop : ∀ ch, rest.head? = some ch → isDigit ch = false)
    (hpoint : '.' ∉ first :: others → ∀ ch more, rest = '.' :: ch :: more → isDigit ch = false) :
    c.afterNumber = c.past others rest := by
  rcases hnumber with ⟨-, hall⟩ | ⟨whole, fraction, hwhole, hfraction, heq⟩
  · have run := passWhile_of_run h (fun ch hch => hall ch (List.mem_cons_of_mem _ hch)) hstop
    have none : ¬ ((c.past others rest).head? = some '.' ∧
        (c.past others rest).second?.any isDigit = true) := by
      rintro ⟨hhead, hsecond⟩
      obtain ⟨tail, rfl⟩ := List.head?_eq_some_iff.1 (show rest.head? = some '.' from hhead)
      cases tail with
      | nil => simp [second?] at hsecond
      | cons ch more =>
        have hch := hpoint (point_not_mem_of_digits hall) ch more rfl
        simp [second?, hch] at hsecond
    rw [afterNumber, run]
    exact if_neg none
  · obtain ⟨digit, whole, rfl⟩ := List.exists_cons_of_ne_nil hwhole.1
    obtain ⟨rfl, rfl⟩ : first = digit ∧ others = whole ++ '.' :: fraction := by simpa using heq
    obtain ⟨digit, more, rfl, hdigit⟩ := hfraction.front
    have hrest : c.rest = whole ++ '.' :: (digit :: more ++ rest) := by simpa using h
    have run := passWhile_of_run hrest (fun ch hch => hwhole.2 ch (List.mem_cons_of_mem _ hch))
      (by simp [show isDigit '.' = false by decide])
    have run' := passWhile_of_run (c := c.past (whole ++ ['.']) (digit :: more ++ rest)) rfl
      hfraction.2 hstop
    rw [afterNumber, run]
    simp only [head?, second?, past_rest, List.head?_cons, List.cons_append, List.tail_cons,
      Option.any_some, hdigit, and_self, if_true, next?_of_cons (past_rest c whole _), past_past]
    rw [List.cons_append] at run'
    rw [run', past_past]
    simp

/-- The step over a number. -/
private lemma numberLexeme_of_isNumber {first : Char} {others rest : List Char} {value : Binary64}
    (hnumber : IsNumber (first :: others))
    (hvalue : Binary64.ofText? (first :: others) = some value)
    (hstop : ∀ ch, rest.head? = some ch → isDigit ch = false)
    (hpoint : '.' ∉ first :: others → ∀ ch more, rest = '.' :: ch :: more → isDigit ch = false) :
    (c.past [first] (others ++ rest)).numberLexeme c.offset =
      .lexeme (.literal (.number value)) (c.past (first :: others) rest) := by
  have after := afterNumber_of_isNumber (past_rest c [first] (others ++ rest)) hnumber hstop hpoint
  simp only [numberLexeme, after, past_past, List.singleton_append, textSince_past, hvalue,
    Option.getD_some]

/-- The step over a word, before it is known whether the word is a keyword. -/
private lemma wordLexeme_of_run {first : Char} {others rest : List Char}
    (hothers : ∀ ch ∈ others, isWordPart ch = true)
    (hstop : ∀ ch, rest.head? = some ch → isWordPart ch = false) :
    (c.past [first] (others ++ rest)).wordLexeme c.offset =
      .lexeme ((Keyword.ofSpelling? (String.ofList (first :: others))).elim .identifier .keyword)
        (c.past (first :: others) rest) := by
  have run := passWhile_of_run (past_rest c [first] (others ++ rest)) hothers hstop
  simp only [wordLexeme, run, past_past, List.singleton_append, textSince_past]
  cases Keyword.ofSpelling? (String.ofList (first :: others)) <;> rfl

/-- A word that is spelled like no keyword is not found among them. -/
private lemma ofSpelling?_eq_none {word : String} (h : ∀ k : Keyword, k.spelling ≠ word) :
    Keyword.ofSpelling? word = none := by
  cases hfound : Keyword.ofSpelling? word with
  | none => rfl
  | some k => exact absurd ((Keyword.ofSpelling?_eq_some_iff word k).1 hfound) (h k)

/-- The step over an operator, the first character of which is passed.

**Proof sketch.** An operator is that character alone, or the character with an equals sign behind
it. In the first case no equals sign follows that could be taken into the operator. -/
private lemma operatorLexeme_of_spelling {ch : Char} {op first : Operator}
    {others rest : List Char} (hfirst : first.spelling = [ch]) (hop : op.spelling = ch :: others)
    (hend : op.withEqual? ≠ none → rest.head? ≠ some '=') :
    (c.past [ch] (others ++ rest)).operatorLexeme first =
      .lexeme (.operator op) (c.past (ch :: others) rest) := by
  have forms : ∀ op ∈ Operator.all, op.spelling.tail = [] ∨ op.spelling.tail = ['='] := by decide
  rcases (by simpa [hop] using forms op op.mem_all : others = [] ∨ others = ['=']) with rfl | rfl
  · obtain rfl : first = op := Operator.spelling_injective (hfirst.trans hop.symm)
    rw [operatorLexeme]
    cases hlonger : first.withEqual? with
    | none => rfl
    | some longer =>
      have stays : (c.past [ch] rest).accept '=' = (false, c.past [ch] rest) :=
        accept_of_ne (hend (by simp [hlonger]))
      simp only [List.nil_append, stays]
  · have hlonger : first.withEqual? = some op := by
      rw [Operator.withEqual?_eq_some_iff, hfirst, hop, List.singleton_append]
    rw [operatorLexeme, hlonger]
    simp only [List.singleton_append, accept_of_cons (past_rest c [ch] ('=' :: rest)), past_past]

/-- The step at a character that is neither a blank nor the first of a string, a number, a word or
a comment. -/
private lemma step_of_cons {ch : Char} {text : List Char} (h : c.rest = ch :: text) :
    c.step =
      match classOf ch with
      | .blank => .skip (c.past [ch] text)
      | .quote => (c.past [ch] text).stringLexeme c.location
      | .digit => (c.past [ch] text).numberLexeme c.offset
      | .letter => (c.past [ch] text).wordLexeme c.offset
      | .mark | .stray =>
        if ch = '/' ∧ text.head? = some '/' then .skip ((c.past [ch] text).passWhile (· != '\n')).2
        else
          match Operator.ofChar? ch with
          | some op => (c.past [ch] text).operatorLexeme op
          | none => .fault (.unexpectedCharacter ch ⟨c.location, (c.past [ch] text).location⟩)
              (c.past [ch] text) := by
  simp only [step, next?_of_cons h]
  by_cases hblank : isBlank ch = true
  · simp [classOf, hblank]
  by_cases hquote : ch = '\x22'
  · simp [classOf, hquote, show isBlank '\x22' = false by decide]
  by_cases hdigit : isDigit ch = true
  · simp [classOf, hblank, hquote, hdigit]
  by_cases hletter : isWordStart ch = true
  · simp [classOf, hblank, hquote, hdigit, hletter]
  by_cases hmark : (Operator.ofChar? ch).isSome = true
  · simp [classOf, hblank, hquote, hdigit, hletter, hmark, head?]
    rfl
  · simp [classOf, hblank, hquote, hdigit, hletter, hmark, head?]
    rfl

/-- The step over a comment. -/
private lemma step_of_isComment {text rest : List Char} (h : c.rest = text ++ rest)
    (hcomment : IsComment text) (hend : ∀ ch, rest.head? = some ch → ch = '\n') :
    c.step = .skip (c.past text rest) := by
  obtain ⟨body, rfl, hbody⟩ := hcomment
  have inside : ∀ ch ∈ '/' :: body, (ch != '\n') = true := by
    intro ch hch
    rcases List.mem_cons.1 hch with rfl | hch
    · decide
    · simpa using fun heq : ch = '\n' => hbody (heq ▸ hch)
  have run : ((c.past ['/'] ('/' :: (body ++ rest))).passWhile (· != '\n')).2 =
      (c.past ['/'] ('/' :: (body ++ rest))).past ('/' :: body) rest :=
    passWhile_of_run rfl inside (fun ch hch => by simp [hend ch hch])
  replace h : c.rest = '/' :: '/' :: (body ++ rest) := h
  rw [step_of_cons h, show classOf '/' = .mark by decide]
  simp only [List.head?_cons, and_self, if_true, run, past_past, List.singleton_append]

/-- The step over an operator. -/
private lemma step_of_operator {op : Operator} {rest : List Char} (h : c.rest = op.spelling ++ rest)
    (hend : Kind.EndsBefore op.spelling rest (.operator op)) :
    c.step = .lexeme (.operator op) (c.past op.spelling rest) := by
  have front : ∀ op ∈ Operator.all, ∃ first ∈ Operator.all,
      first.spelling = [op.spelling.headD ' '] ∧ (first = .slash → op = .slash) := by decide
  obtain ⟨ch, others, hop⟩ : ∃ ch others, op.spelling = ch :: others := by
    cases op <;> exact ⟨_, _, rfl⟩
  obtain ⟨first, -, hfirst, hslash⟩ := front op op.mem_all
  rw [hop, List.headD_cons] at hfirst
  have nocomment : ¬ (ch = '/' ∧ (others ++ rest).head? = some '/') := by
    rintro ⟨rfl, hhead⟩
    obtain rfl : op = .slash := hslash (Operator.spelling_injective hfirst)
    obtain rfl : others = [] := by simpa [Operator.spelling] using hop
    exact hend.2 rfl hhead
  rw [hop, List.cons_append] at h
  rw [step_of_cons h, classOf_of_spelling hop]
  simp only [if_neg nocomment, (Operator.ofChar?_eq_some_iff ch first).2 hfirst]
  rw [operatorLexeme_of_spelling hfirst hop hend.1, hop]

/-- A step passes the piece at the front.

**Proof sketch.** The first character of the piece decides which branch the step takes; in that
branch the moves pass the piece, since it consists of a run of characters of one class (or two
such runs with a point between them) and since nothing behind the piece continues it. -/
theorem step_of_leads {p : Piece} {rest : List Char} (h : c.rest = p.text ++ rest)
    (hlead : Leads p rest) : c.step = p.step c rest := by
  cases hlead with
  | blank hblank => rw [step_of_cons h, classOf_of_isBlank hblank]; rfl
  | comment hcomment hend => exact step_of_isComment h hcomment hend
  | @stray ch _ hstray =>
    have noslash : ¬ (ch = '/' ∧ rest.head? = some '/') := by
      rintro ⟨rfl, -⟩
      exact absurd hstray (by decide)
    replace h : c.rest = ch :: rest := h
    rw [step_of_cons h, hstray]
    simp only [if_neg noslash, ofChar?_of_stray hstray]
    rfl
  | @openString body hbody =>
    rw [List.append_nil] at h
    rw [step_of_cons h, classOf_quote]
    simp only [stringLexeme_of_open (c := c.past ['\x22'] body) hbody, past_rest, past_past,
      past_location, ← Location.after_append]
    rfl
  | lexeme hlexeme hend =>
    cases hlexeme with
    | operator op => exact step_of_operator h hend
    | @string body hbody =>
      have hrest : (c.past ['\x22'] (body ++ '\x22' :: rest)).rest = body ++ '\x22' :: rest := rfl
      rw [List.cons_append, List.append_assoc] at h
      rw [step_of_cons h, classOf_quote]
      simp only [List.singleton_append, stringLexeme_of_close hrest hbody, past_past]
      rfl
    | number hnumber hvalue =>
      obtain ⟨first, others, rfl, hfirst⟩ := hnumber.front
      rw [step_of_cons h, classOf_of_isDigit hfirst]
      exact numberLexeme_of_isNumber hnumber hvalue hend.1 hend.2
    | @keyword _ word hword hspell =>
      obtain ⟨first, others, rfl, hfirst, hothers⟩ := hword
      replace h : c.rest = first :: (others ++ rest) := h
      rw [step_of_cons h, classOf_of_isWordStart hfirst]
      simp only [wordLexeme_of_run hothers hend, (Keyword.ofSpelling?_eq_some_iff _ _).2 hspell]
      rfl
    | identifier hword hspell =>
      obtain ⟨first, others, rfl, hfirst, hothers⟩ := hword
      replace h : c.rest = first :: (others ++ rest) := h
      rw [step_of_cons h, classOf_of_isWordStart hfirst]
      simp only [wordLexeme_of_run hothers hend, ofSpelling?_eq_none hspell]
      rfl

end Steps

end Cursor

end LoxLex
