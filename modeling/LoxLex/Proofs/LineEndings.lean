import LoxLex.Proofs.Concatenation

set_option relaxedAutoImplicit false
set_option autoImplicit false

/-!
# Line endings

A carriage return may be put in front of each newline of a text. Outside strings it is one more
blank, or the last character of a comment, and the newline behind it leads to the start of the next
line wherever it stands. So all items remain at their places; only the strings that go over several
lines have the carriage returns in them.

## Main definitions

* `LoxLex.crlf` — a text with a carriage return in front of each newline.
* `LoxLex.Token.crlf` — a token with the same done to its lexeme and to the body of a string.

## Main results

* `LoxLex.Location.after_crlf` — carriage returns in front of newlines lead nowhere else.
* `LoxLex.Splits.exists_crlf` — the pieces of a text with carriage returns.
* `LoxLex.scan_crlf` — the scan of a text with carriage returns.
-/

namespace LoxLex

/-! ## Carriage returns in front of newlines -/

/-- Characters with a carriage return in front of each newline. -/
def crlfChars (text : List Char) : List Char :=
  text.flatMap fun ch => if ch = '\n' then ['\r', '\n'] else [ch]

/-- A text with a carriage return in front of each newline. -/
def crlf (text : String) : String := String.ofList (crlfChars text.toList)

/-- A kind with carriage returns in the body of a string. -/
def Kind.crlf : Kind → Kind
  | .literal (.string body) => .literal (.string (LoxLex.crlf body))
  | kind => kind

/-- A token with carriage returns in its lexeme and in the body of a string, at the same place. -/
def Token.crlf (t : Token) : Token :=
  { t with kind := t.kind.crlf, lexeme := LoxLex.crlf t.lexeme }

/-- An item with carriage returns in the texts of a token. An error is the same. -/
def Item.crlf : Item → Item
  | token t => token t.crlf
  | error e => error e

/-- A newline is given its carriage return. -/
lemma crlfChars_newline (text : List Char) :
    crlfChars ('\n' :: text) = '\r' :: '\n' :: crlfChars text := rfl

/-- Any other character remains as it is. -/
lemma crlfChars_cons {ch : Char} (h : ch ≠ '\n') (text : List Char) :
    crlfChars (ch :: text) = ch :: crlfChars text := by
  simp [crlfChars, h]

/-- Carriage returns are put into two parts of a text one after the other. -/
lemma crlfChars_append (a b : List Char) : crlfChars (a ++ b) = crlfChars a ++ crlfChars b :=
  List.flatMap_append

/-- A part of a line remains as it is. -/
lemma crlfChars_of_not_mem {text : List Char} (h : '\n' ∉ text) : crlfChars text = text := by
  induction text with
  | nil => rfl
  | cons ch text ih =>
    obtain ⟨hch, htext⟩ : ¬ '\n' = ch ∧ '\n' ∉ text := by simpa using h
    rw [crlfChars_cons (Ne.symm hch), ih htext]

/-- There are no more quotes than before. -/
lemma quote_not_mem_crlfChars {text : List Char} (h : '\x22' ∉ text) : '\x22' ∉ crlfChars text := by
  simp only [crlfChars, List.mem_flatMap, not_exists, not_and]
  intro ch hch
  split
  · decide
  · rintro hquote
    exact h (List.mem_singleton.1 hquote ▸ hch)

/-- Carriage returns in front of newlines lead nowhere else.

**Proof sketch.** A newline leads to the start of the next line from every column. -/
lemma Location.after_crlf (l : Location) (text : List Char) :
    l.after (crlfChars text) = l.after text := by
  induction text generalizing l with
  | nil => rfl
  | cons ch text ih =>
    by_cases h : ch = '\n'
    · subst h
      exact ih _
    · rw [crlfChars_cons h, after_cons, after_cons, ih]

/-- A text begins as before, or with a carriage return. -/
lemma head_crlfChars (text : List Char) :
    (crlfChars text).head? = text.head? ∨
      ∃ b, (crlfChars text).head? = some b ∧ isBlank b = true := by
  cases text with
  | nil => exact .inl rfl
  | cons ch text =>
    by_cases h : ch = '\n'
    · subst h
      exact .inr ⟨'\r', rfl, by decide⟩
    · rw [crlfChars_cons h]
      exact .inl rfl

/-- A text with carriage returns looks like the text but for blanks. -/
lemma blankedFront_crlfChars (text : List Char) : BlankedFront text (crlfChars text) := by
  refine ⟨head_crlfChars text, fun hpoint _ => ?_⟩
  obtain ⟨tail, rfl⟩ := List.head?_eq_some_iff.1 hpoint
  rw [crlfChars_cons (by decide)]
  exact head_crlfChars tail

/-! ## Lexemes with carriage returns -/

/-- Strings apart, lexemes are parts of a line. -/
lemma IsLexeme.newline_not_mem {kind : Kind} {text : List Char} (h : IsLexeme kind text)
    (hquote : kind.frontClass ≠ .quote) : '\n' ∉ text := by
  by_cases hslash : kind = .operator .slash
  · subst hslash
    cases h
    decide
  · intro hnewline
    exact absurd (h.isPlain hquote hslash '\n' hnewline).1 (by decide)

/-- Only strings are changed by carriage returns. -/
lemma Kind.crlf_of_ne_quote {kind : Kind} (h : kind.frontClass ≠ .quote) : kind.crlf = kind := by
  cases kind with
  | literal value =>
    cases value with
    | string body => exact absurd rfl h
    | number value => rfl
  | operator | identifier | keyword | endOfInput => rfl

/-- A lexeme with carriage returns is a lexeme. -/
lemma IsLexeme.crlf {kind : Kind} {text : List Char} (h : IsLexeme kind text) :
    IsLexeme kind.crlf (crlfChars text) := by
  by_cases hquote : kind.frontClass = .quote
  · cases h with
    | @string body hbody =>
      have htext : crlfChars ('\x22' :: (body ++ ['\x22'])) =
          '\x22' :: (crlfChars body ++ ['\x22']) := by
        rw [crlfChars_cons (by decide), crlfChars_append]
        rfl
      rw [htext, Kind.crlf, LoxLex.crlf, String.toList_ofList]
      exact .string (quote_not_mem_crlfChars hbody)
    | _ => cases hquote
  · rwa [Kind.crlf_of_ne_quote hquote, crlfChars_of_not_mem (h.newline_not_mem hquote)]

/-! ## Pieces with carriage returns -/

/-- No lexeme begins with a blank. -/
lemma IsLexeme.isBlank_front {kind : Kind} {ch : Char} {text : List Char}
    (h : IsLexeme kind (ch :: text)) : isBlank ch = false := by
  obtain ⟨first, others, heq, hclass⟩ := h.front
  obtain rfl : ch = first := (List.cons.inj heq).1
  refine Bool.eq_false_iff.2 fun hblank => ?_
  rw [classOf_of_isBlank hblank] at hclass
  cases kind with
  | literal value => cases value <;> cases hclass
  | operator | identifier | keyword | endOfInput => cases hclass

/-- A blank at the front of a text is a piece by itself. -/
lemma Splits.uncons_blank {ch : Char} {rest : List Char} {ps : List Piece}
    (h : Splits (ch :: rest) ps) (hch : isBlank ch = true) :
    ∃ qs, ps = ⟨.gap, [ch]⟩ :: qs ∧ Splits rest qs := by
  cases ps with
  | nil => cases h.text_eq
  | cons p qs =>
    obtain ⟨rest', htext, hlead, hqs⟩ := h.uncons
    cases hlead with
    | blank =>
      obtain ⟨rfl, rfl⟩ := List.cons.inj htext
      exact ⟨qs, rfl, hqs⟩
    | comment hcomment =>
      obtain ⟨body, rfl, -⟩ := hcomment
      obtain rfl : ch = '/' := (List.cons.inj htext).1
      exact absurd hch (by decide)
    | lexeme hlexeme =>
      obtain ⟨first, others, rfl, -⟩ := hlexeme.front
      obtain rfl : ch = first := (List.cons.inj htext).1
      simp [hlexeme.isBlank_front] at hch
    | stray hstray =>
      obtain rfl := (List.cons.inj htext).1
      rw [classOf_of_isBlank hch] at hstray
      cases hstray
    | openString =>
      obtain rfl : ch = '\x22' := (List.cons.inj htext).1
      exact absurd hch (by decide)

/-- A piece with carriage returns in its text and in the body of a string. -/
def Piece.crlf (p : Piece) : Piece :=
  match p.role with
  | .lexeme kind => ⟨.lexeme kind.crlf, crlfChars p.text⟩
  | .gap | .stray _ | .openString => ⟨p.role, crlfChars p.text⟩

/-- The text of a piece with carriage returns. -/
@[simp] lemma Piece.text_crlf (p : Piece) : p.crlf.text = crlfChars p.text := by
  rw [crlf]
  split <;> rfl

/-- The item of a piece with carriage returns is the item with carriage returns. -/
lemma Piece.item?_crlf (l : Location) (p : Piece) :
    p.crlf.item? l = (p.item? l).map Item.crlf := by
  cases hrole : p.role <;>
    simp [crlf, item?, hrole, Item.crlf, Token.crlf, LoxLex.crlf, l.after_crlf]

/-- Gaps apart, a piece with carriage returns is the front of the text with carriage returns. -/
lemma Leads.crlf {p : Piece} {rest : List Char} (h : Leads p rest) (hgap : p.role ≠ .gap) :
    Leads p.crlf (crlfChars rest) := by
  cases h with
  | blank | comment => exact absurd rfl hgap
  | @lexeme kind text _ h hend =>
    refine .lexeme h.crlf ?_
    have hfront := hend.of_blankedFront (blankedFront_crlfChars rest)
    by_cases hquote : kind.frontClass = .quote
    · cases h with
      | string => trivial
      | _ => cases hquote
    · rwa [Kind.crlf_of_ne_quote hquote, crlfChars_of_not_mem (h.newline_not_mem hquote)]
  | @stray ch _ h =>
    have hch : ch ≠ '\n' := by
      rintro rfl
      exact absurd h (by decide)
    have hsame : Piece.crlf ⟨.stray ch, [ch]⟩ = ⟨.stray ch, [ch]⟩ := by
      simp [Piece.crlf, crlfChars, hch]
    rw [hsame]
    exact .stray h
  | @openString body h =>
    have hsame : Piece.crlf ⟨.openString, '\x22' :: body⟩ =
        ⟨.openString, '\x22' :: crlfChars body⟩ := by
      rw [Piece.crlf, crlfChars_cons (by decide)]
    rw [hsame]
    exact .openString (quote_not_mem_crlfChars h)

/-- The pieces of a text with carriage returns have the items of the text with carriage returns.

**Proof sketch.** Induction on the pieces. In front of a newline that is a piece by itself the
carriage return is one more piece. The carriage return behind a comment is the first piece of what
follows; it becomes part of the comment. -/
theorem Splits.exists_crlf {text : List Char} {ps : List Piece} (h : Splits text ps) :
    ∃ qs, Splits (crlfChars text) qs ∧ ∀ l, place l qs = (place l ps).map Item.crlf := by
  induction h with
  | nil => exact ⟨[], .nil, fun _ => rfl⟩
  | @cons p rest ps hlead hs ih =>
    obtain ⟨qs, hqs, hplace⟩ := ih
    rw [crlfChars_append]
    by_cases hgap : p.role = .gap
    · cases hlead with
      | @blank ch _ hch =>
        by_cases hnewline : ch = '\n'
        · subst hnewline
          have hreturn : Leads ⟨.gap, ['\r']⟩ ('\n' :: crlfChars rest) := .blank (by decide)
          exact ⟨_, .cons hreturn (.cons (.blank hch) hqs), fun l => hplace _⟩
        · rw [crlfChars_of_not_mem (by simpa using Ne.symm hnewline)]
          exact ⟨_, .cons (.blank hch) hqs, fun l => hplace _⟩
      | @comment text _ hcomment hend =>
        have hline : '\n' ∉ text := by
          obtain ⟨body, rfl, hbody⟩ := hcomment
          simpa using hbody
        rw [crlfChars_of_not_mem hline]
        cases rest with
        | nil =>
          have hlead : Leads ⟨.gap, text⟩ (crlfChars []) := .comment hcomment hend
          refine ⟨⟨.gap, text⟩ :: qs, .cons hlead hqs, fun l => ?_⟩
          rw [place_gap, place_gap, hplace]
        | cons ch rest =>
          obtain rfl : ch = '\n' := hend ch rfl
          rw [crlfChars_newline] at hqs ⊢
          obtain ⟨others, rfl, hothers⟩ := hqs.uncons_blank (by decide)
          have hlonger : IsComment (text ++ ['\r']) := by
            obtain ⟨body, rfl, hbody⟩ := hcomment
            exact ⟨body ++ ['\r'], rfl, by simpa using hbody⟩
          have hlead : Leads ⟨.gap, text ++ ['\r']⟩ ('\n' :: crlfChars rest) :=
            .comment hlonger (by simp)
          refine ⟨⟨.gap, text ++ ['\r']⟩ :: others, ?_, fun l => ?_⟩
          · simpa using Splits.cons hlead hothers
          · rw [place_gap, place_gap, Location.after_append, ← place_gap, hplace]
      | lexeme | stray | openString => cases hgap
    · refine ⟨p.crlf :: qs, p.text_crlf ▸ .cons (hlead.crlf hgap) hqs, fun l => ?_⟩
      rw [place_cons, place_cons, p.item?_crlf, p.text_crlf, l.after_crlf, hplace, List.map_append]
      cases p.item? l <;> rfl

/-! ## Scans with carriage returns -/

/-- Carriage returns change neither which items are tokens nor the errors. -/
lemma Scan.ofItems_crlf (found : List Item) :
    Scan.ofItems (found.map Item.crlf) =
      ⟨(Scan.ofItems found).tokens.map Token.crlf, (Scan.ofItems found).errors⟩ := by
  induction found with
  | nil => rfl
  | cons item found ih =>
    simp only [Scan.ofItems, Scan.mk.injEq] at ih ⊢
    cases item with
    | token t => exact ⟨congrArg (t.crlf :: ·) ih.1, ih.2⟩
    | error e => exact ⟨ih.1, congrArg (e :: ·) ih.2⟩

/-- A token of a scan is changed by carriage returns only if it is a string with a newline in it. -/
lemma Token.crlf_of_mem_tokens {source : String} {t : Token} (h : t ∈ (scan source).tokens)
    (hstring : t.kind.name = "STRING" → '\n' ∉ t.lexeme.toList) : t.crlf = t := by
  obtain ⟨kind, lexeme, span⟩ := t
  rcases wellFormed_of_mem_tokens h with hlexeme | ⟨hkind, hlast⟩
  · suffices hsame : kind.crlf = kind ∧ '\n' ∉ lexeme.toList by
      rw [crlf, hsame.1, LoxLex.crlf, crlfChars_of_not_mem hsame.2, String.ofList_toList]
    by_cases hquote : kind.frontClass = .quote
    · generalize htext : lexeme.toList = text at hlexeme
      cases hlexeme with
      | @string body hbody =>
        have hline := hstring rfl
        have hbody' : '\n' ∉ body := fun hn => hline (by simp [htext, hn])
        rw [Kind.crlf, LoxLex.crlf, String.toList_ofList, crlfChars_of_not_mem hbody', ← htext]
        exact ⟨rfl, hline⟩
      | _ => cases hquote
    · exact ⟨Kind.crlf_of_ne_quote hquote, hlexeme.newline_not_mem hquote⟩
  · obtain rfl : kind = .endOfInput := hkind
    obtain rfl : lexeme = "" := hlast
    rfl

/-- **Line endings do not matter.** Put a carriage return in front of each newline of a text. The
scan of the new text has the same errors, with their characters and spans; and it has the same
tokens, with the same kinds, numbers and spans, but with a carriage return in front of each newline
of a string. If no string has a newline in it, the two scans are equal.

**Proof sketch.** The pieces of the new text have the items of the old one, with carriage returns.
A token that is no string is part of a line. -/
theorem scan_crlf (source : String) :
    (scan (crlf source)).errors = (scan source).errors ∧
      (scan (crlf source)).tokens = (scan source).tokens.map Token.crlf ∧
      ((∀ t ∈ (scan source).tokens, t.kind.name = "STRING" → '\n' ∉ t.lexeme.toList) →
        scan (crlf source) = scan source) := by
  obtain ⟨ps, hps⟩ := exists_splits source.toList
  obtain ⟨qs, hqs, hplace⟩ := hps.exists_crlf
  have hcrlf : Splits (crlf source).toList qs := by rwa [crlf, String.toList_ofList]
  have hscan : scan (crlf source) = ⟨(scan source).tokens.map Token.crlf, (scan source).errors⟩ := by
    rw [scan_of_splits hcrlf, scan_of_splits hps, hplace, Scan.ofItems_crlf]
  rw [hscan]
  refine ⟨rfl, rfl, fun hstrings => ?_⟩
  have hsame : (scan source).tokens.map Token.crlf = (scan source).tokens :=
    (List.map_congr_left fun t ht => t.crlf_of_mem_tokens ht (hstrings t ht)).trans (List.map_id _)
  rw [hsame]

/-- A comment, an error and a string that is left open, with newlines between them and in the string:
no token has a newline in it. -/
theorem scan_crlf_of_open_string :
    (∀ t ∈ (scan "a // b\n@\"c\n").tokens, t.kind.name = "STRING" → '\n' ∉ t.lexeme.toList) ∧
      scan (crlf "a // b\n@\"c\n") = scan "a // b\n@\"c\n" := by
  have hstrings : ∀ t ∈ (scan "a // b\n@\"c\n").tokens,
      t.kind.name = "STRING" → '\n' ∉ t.lexeme.toList := by decide +kernel
  exact ⟨hstrings, (scan_crlf "a // b\n@\"c\n").2.2 hstrings⟩

end LoxLex
