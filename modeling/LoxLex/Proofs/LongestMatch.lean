import LoxLex.Proofs.Placement

set_option relaxedAutoImplicit false
set_option autoImplicit false

/-!
# Longest matches

The language of the scanner is given by its lexemes and comments alone: at every place the longest
prefix that is one of these is taken. The scanner never compares prefixes; it looks at one
character, and at one or two more where a lexeme could go on. Both find the same items.

## Main definitions

* `LoxLex.IsCandidate` — the texts that may be taken from the front of a text.
* `LoxLex.IsLongestCandidate` — the longest one at the front of a text.
* `LoxLex.Lexes` — the items of a text by the rule of longest matches.

## Main results

* `LoxLex.Leads.candidate_le` — no candidate goes beyond the piece at the front.
* `LoxLex.lexes_iff_exists_splits` — longest matches are the pieces of a text.
* `LoxLex.lexes_iff_eq_items` — the rule of longest matches determines what a scanner yields.
-/

namespace LoxLex

/-- A text that may be taken from the front of a text: a lexeme or a comment. -/
def IsCandidate (text : List Char) : Prop := (∃ kind, IsLexeme kind text) ∨ IsComment text

/-- The longest candidate at the front of a text. -/
structure IsLongestCandidate (front text : List Char) : Prop where
  candidate : IsCandidate front
  front_isPrefix : front <+: text
  longest : ∀ other, IsCandidate other → other <+: text → other.length ≤ front.length

/-- The items of a text that begins at a location, by the rule of longest matches. -/
inductive Lexes : Location → List Char → List Item → Prop where
  /-- Where nothing remains, the end is found. -/
  | finish {l : Location} : Lexes l [] [.token ⟨.endOfInput, "", ⟨l, l⟩⟩]
  /-- A blank is dropped. -/
  | blank {l : Location} {ch : Char} {rest : List Char} {found : List Item} (h : isBlank ch = true)
    (hrest : Lexes (l.after [ch]) rest found) : Lexes l (ch :: rest) found
  /-- A comment that is the longest candidate is dropped. -/
  | comment {l : Location} {text rest : List Char} {found : List Item} (h : IsComment text)
    (hlongest : IsLongestCandidate text (text ++ rest))
    (hrest : Lexes (l.after text) rest found) : Lexes l (text ++ rest) found
  /-- A lexeme that is the longest candidate is a token. -/
  | lexeme {l : Location} {kind : Kind} {text rest : List Char} {found : List Item}
    (h : IsLexeme kind text) (hlongest : IsLongestCandidate text (text ++ rest))
    (hrest : Lexes (l.after text) rest found) :
    Lexes l (text ++ rest) (.token ⟨kind, String.ofList text, ⟨l, l.after text⟩⟩ :: found)
  /-- A quote without a candidate takes all that remains. -/
  | openString {l : Location} {body : List Char} {found : List Item}
    (hnone : ∀ front, IsCandidate front → ¬ front <+: '\x22' :: body)
    (hrest : Lexes (l.after ('\x22' :: body)) [] found) :
    Lexes l ('\x22' :: body)
      (.error (.unterminatedString ⟨l, l.after ('\x22' :: body)⟩) :: found)
  /-- Any other character without a candidate is an error by itself. -/
  | stray {l : Location} {ch : Char} {rest : List Char} {found : List Item}
    (hblank : isBlank ch = false) (hquote : ch ≠ '\x22')
    (hnone : ∀ front, IsCandidate front → ¬ front <+: ch :: rest)
    (hrest : Lexes (l.after [ch]) rest found) :
    Lexes l (ch :: rest) (.error (.unexpectedCharacter ch ⟨l, l.after [ch]⟩) :: found)

/-! ## No candidate goes beyond the front piece -/

/-- A prefix of a text in two parts lies in the first part, or it goes on into the second one. -/
private lemma prefix_append_cases {front text rest : List Char} (h : front <+: text ++ rest) :
    front.length ≤ text.length ∨
      ∃ next more, front = text ++ next :: more ∧ next :: more <+: rest := by
  obtain ⟨tail, htail⟩ := h
  rcases List.append_eq_append_iff.1 htail with ⟨a, rfl, -⟩ | ⟨a, rfl, ha⟩
  · exact .inl (by simp)
  · cases a with
    | nil => exact .inl (by simp)
    | cons next more => exact .inr ⟨next, more, rfl, ⟨tail, ha.symm⟩⟩

/-- The first characters of a text and of a prefix of it are the same. -/
private lemma head_eq_of_prefix {a b : Char} {front text : List Char}
    (h : a :: front <+: b :: text) : a = b :=
  (List.cons_prefix_cons.1 h).1

/-- An operator that goes on is the one with an equals sign behind it. -/
private lemma withEqual?_of_spelling_append {op longer : Operator} {next : Char} {more : List Char}
    (h : longer.spelling = op.spelling ++ next :: more) : op.withEqual? ≠ none ∧ next = '=' := by
  have continued : ∀ op ∈ Operator.all, ∀ longer ∈ Operator.all,
      op.spelling <+: longer.spelling → longer.spelling.drop op.spelling.length ≠ [] →
        longer.spelling = op.spelling ++ ['='] := by decide
  have hspell := continued op op.mem_all longer longer.mem_all ⟨_, h.symm⟩ (by simp [h])
  rw [(Operator.withEqual?_eq_some_iff op longer).2 hspell]
  rw [hspell] at h
  exact ⟨by simp, (List.cons.inj (List.append_cancel_left h)).1.symm⟩

/-- A lexeme that ends where it does is not the beginning of a longer one.

**Proof sketch.** Two lexemes with the same first character are of the same sort. What the longer
one has behind the shorter one would be an equals sign that makes an operator longer, a character
behind a closing quote, a digit or a point with a digit, or a character of a word; none of these
stands behind the shorter one. -/
private lemma IsLexeme.length_le_of_prefix {kind other : Kind} {text front rest : List Char}
    (h : IsLexeme kind text) (hend : kind.EndsBefore text rest) (hfront : IsLexeme other front)
    (hpre : front <+: text ++ rest) : front.length ≤ text.length := by
  rcases prefix_append_cases hpre with hle | ⟨next, more, heq, hnext⟩
  · exact hle
  exfalso
  have hhead : rest.head? = some next := by
    obtain ⟨tail, rfl⟩ := hnext
    rfl
  have same : kind.frontClass = other.frontClass := by
    obtain ⟨a, text', htext', hclass⟩ := h.front
    obtain ⟨b, front', hfront', hclass'⟩ := hfront.front
    have hab : b = a := head_eq_of_prefix (by simpa [htext', hfront'] using hpre)
    rw [← hclass, ← hclass', hab]
  cases h with
  | operator op =>
    cases hfront with
    | operator longer =>
      obtain ⟨hlonger, rfl⟩ := withEqual?_of_spelling_append heq
      exact hend.1 hlonger hhead
    | _ => cases same
  | @string body hbody =>
    cases hfront with
    | @string body' hbody' =>
      have hlonger : body' ++ ['\x22'] = body ++ '\x22' :: next :: more := by simpa using heq
      have hdrop : body' = body ++ '\x22' :: (next :: more).dropLast := by
        simpa using congrArg List.dropLast hlonger
      exact hbody' (by simp [hdrop])
    | _ => cases same
  | number hnumber =>
    cases hfront with
    | number hlonger =>
      rcases (heq ▸ hlonger).extension with hdigit | ⟨hpoint, rfl, digit, others, rfl, hdigit⟩
      · simp [hend.1 next hhead] at hdigit
      · obtain ⟨tail, rfl⟩ := hnext
        simp [hend.2 hpoint digit (others ++ tail) (by simp)] at hdigit
    | _ => cases same
  | keyword hword | identifier hword =>
    have hstop : isWordPart next = false := hend next hhead
    cases hfront with
    | keyword hlonger | identifier hlonger =>
      rw [heq] at hlonger
      simp [hlonger.extension hword.ne_nil] at hstop
    | _ => cases same

/-- A lexeme that ends where it does is not the beginning of a comment. -/
private lemma IsLexeme.length_le_of_comment {kind : Kind} {text front rest : List Char}
    (h : IsLexeme kind text) (hend : kind.EndsBefore text rest) (hfront : IsComment front)
    (hpre : front <+: text ++ rest) : front.length ≤ text.length := by
  rcases prefix_append_cases hpre with hle | ⟨next, more, heq, hnext⟩
  · exact hle
  exfalso
  obtain ⟨body, rfl, -⟩ := hfront
  obtain ⟨ch, others, rfl, hclass⟩ := h.front
  obtain ⟨rfl, hothers⟩ : '/' = ch ∧ '/' :: body = others ++ next :: more := by simpa using heq
  rw [show classOf '/' = .mark by decide] at hclass
  have slash : ∀ op ∈ Operator.all, op.spelling.head? = some '/' → op = .slash := by decide
  generalize htext : '/' :: others = text at h
  cases h with
  | operator op =>
    obtain rfl := slash op op.mem_all (by rw [← htext]; rfl)
    obtain rfl : others = [] := by simpa [Operator.spelling] using htext
    obtain ⟨rfl, -⟩ : '/' = next ∧ body = more := by simpa using hothers
    obtain ⟨tail, rfl⟩ := hnext
    exact hend.2 rfl rfl
  | _ => cases hclass

/-- The first character of a candidate begins something other than a blank or nothing. -/
private lemma IsCandidate.front {text : List Char} (h : IsCandidate text) :
    ∃ ch others, text = ch :: others ∧ classOf ch ≠ .blank ∧ classOf ch ≠ .stray := by
  rcases h with ⟨kind, h⟩ | ⟨body, rfl, -⟩
  · obtain ⟨ch, others, rfl, hclass⟩ := h.front
    refine ⟨ch, others, rfl, ?_⟩
    rw [hclass]
    generalize ch :: others = text at h
    cases h <;> simp [Kind.frontClass]
  · exact ⟨_, _, rfl, by decide, by decide⟩

/-- A candidate that begins with a quote is a string, so it has a second quote. -/
private lemma IsCandidate.quote_mem {text : List Char} (h : IsCandidate ('\x22' :: text)) :
    '\x22' ∈ text := by
  rcases h with ⟨kind, h⟩ | ⟨body, heq, -⟩
  · obtain ⟨ch, others, heq, hclass⟩ := h.front
    obtain rfl : '\x22' = ch := (List.cons.inj heq).1
    rw [classOf_quote] at hclass
    generalize htext : '\x22' :: text = whole at h
    cases h with
    | string hbody =>
      obtain rfl := (List.cons.inj htext).2
      simp
    | _ => cases hclass
  · cases heq

/-- A comment that ends where it does is not the beginning of a longer candidate.

**Proof sketch.** A longer comment would have the newline in it that ends the shorter one. No lexeme
that begins with a slash is longer than two characters. -/
private lemma IsComment.length_le_of_prefix {text front rest : List Char} (h : IsComment text)
    (hend : ∀ ch, rest.head? = some ch → ch = '\n') (hfront : IsCandidate front)
    (hpre : front <+: text ++ rest) : front.length ≤ text.length := by
  obtain ⟨body, rfl, hbody⟩ := h
  rcases hfront with ⟨kind, hkind⟩ | ⟨body', rfl, hbody'⟩
  · obtain ⟨ch, others, rfl, hclass⟩ := hkind.front
    obtain rfl : ch = '/' := head_eq_of_prefix hpre
    rw [show classOf '/' = .mark by decide] at hclass
    have short : ∀ op ∈ Operator.all, op.spelling.length ≤ 2 := by decide
    generalize '/' :: others = text at hkind ⊢
    cases hkind with
    | operator op =>
      have := short op op.mem_all
      simp only [List.length_cons]
      omega
    | _ => cases hclass
  · rcases prefix_append_cases hpre with hle | ⟨next, more, heq, tail, rfl⟩
    · exact hle
    · obtain rfl : next = '\n' := hend next rfl
      refine absurd ?_ hbody'
      have : body' = body ++ '\n' :: more := by simpa using heq
      simp [this]

/-- No candidate goes beyond the piece at the front, and there is none at all unless the piece is a
lexeme or a comment. -/
lemma Leads.candidate_le {p : Piece} {rest front : List Char} (h : Leads p rest)
    (hfront : IsCandidate front) (hpre : front <+: p.text ++ rest) :
    IsCandidate p.text ∧ front.length ≤ p.text.length := by
  obtain ⟨ch, others, rfl, hblank, hstray⟩ := hfront.front
  cases h with
  | blank h =>
    obtain rfl := head_eq_of_prefix hpre
    exact absurd (classOf_of_isBlank h) hblank
  | comment h hend => exact ⟨.inr h, h.length_le_of_prefix hend hfront hpre⟩
  | @lexeme kind _ _ h hend =>
    refine ⟨.inl ⟨kind, h⟩, ?_⟩
    rcases hfront with ⟨other, hother⟩ | hcomment
    · exact h.length_le_of_prefix hend hother hpre
    · exact h.length_le_of_comment hend hcomment hpre
  | stray h =>
    obtain rfl := head_eq_of_prefix hpre
    exact absurd h hstray
  | @openString body h =>
    rw [List.append_nil] at hpre
    obtain ⟨rfl, hothers⟩ := List.cons_prefix_cons.1 hpre
    exact absurd (hothers.subset hfront.quote_mem) h

/-- A candidate that ends where the piece at the front does is the longest one. -/
private lemma Leads.isLongestCandidate {p : Piece} {rest : List Char} (h : Leads p rest)
    (hcandidate : IsCandidate p.text) : IsLongestCandidate p.text (p.text ++ rest) :=
  ⟨hcandidate, List.prefix_append _ _, fun _ hother hpre => (h.candidate_le hother hpre).2⟩

/-! ## Longest matches and pieces -/

/-- No comment is a lexeme. -/
private lemma IsComment.not_isLexeme {kind : Kind} {text : List Char} (h : IsComment text) :
    ¬ IsLexeme kind text := by
  intro hkind
  obtain ⟨body, rfl, -⟩ := h
  obtain ⟨ch, others, heq, hclass⟩ := hkind.front
  obtain rfl : '/' = ch := (List.cons.inj heq).1
  have none : ∀ op ∈ Operator.all, op.spelling.take 2 ≠ ['/', '/'] := by decide
  generalize htext : '/' :: '/' :: body = text at hkind
  cases hkind with
  | operator op => exact none op op.mem_all (by simp [← htext])
  | _ => cases hclass

/-- The longest candidate at the front of a text is the piece at its front, as a comment or as a
lexeme.

**Proof sketch.** Some piece is at the front. No candidate goes beyond it, and it does not go beyond
the longest candidate, so the two end at the same place. -/
private lemma IsLongestCandidate.leads {text rest : List Char}
    (h : IsLongestCandidate text (text ++ rest)) :
    IsComment text ∧ Leads ⟨.gap, text⟩ rest ∨
      ∃ kind, IsLexeme kind text ∧ Leads ⟨.lexeme kind, text⟩ rest := by
  have hne : text ++ rest ≠ [] := by
    obtain ⟨ch, others, rfl, -⟩ := h.candidate.front
    simp
  obtain ⟨p, rest', heq, hlead⟩ := exists_leads hne
  obtain ⟨hcandidate, hle⟩ := hlead.candidate_le h.candidate (heq ▸ h.front_isPrefix)
  have hge := h.longest p.text hcandidate (heq ▸ List.prefix_append p.text rest')
  obtain ⟨rfl, rfl⟩ := List.append_inj heq (Nat.le_antisymm hle hge)
  obtain ⟨ch, others, htext, hblank, hstray⟩ := hcandidate.front
  cases hlead with
  | blank hch =>
    obtain ⟨rfl, rfl⟩ := List.cons.inj htext
    exact absurd (classOf_of_isBlank hch) hblank
  | comment hcomment hend => exact .inl ⟨hcomment, .comment hcomment hend⟩
  | lexeme hlexeme hend => exact .inr ⟨_, hlexeme, .lexeme hlexeme hend⟩
  | stray hch =>
    obtain ⟨rfl, rfl⟩ := List.cons.inj htext
    exact absurd hch hstray
  | openString hbody => exact absurd hcandidate.quote_mem hbody

/-- A character that is neither a blank nor a quote and begins no candidate is a piece by itself. -/
private lemma leads_of_no_candidate {ch : Char} {rest : List Char} (hblank : isBlank ch = false)
    (hquote : ch ≠ '\x22') (hnone : ∀ front, IsCandidate front → ¬ front <+: ch :: rest) :
    Leads ⟨.stray ch, [ch]⟩ rest := by
  obtain ⟨p, rest', heq, hlead⟩ := exists_leads (List.cons_ne_nil ch rest)
  have hpre : p.text <+: ch :: rest := heq ▸ List.prefix_append p.text rest'
  cases hlead with
  | blank hch =>
    obtain ⟨rfl, -⟩ := List.cons.inj heq
    simp [hch] at hblank
  | comment hcomment => exact absurd hpre (hnone _ (.inr hcomment))
  | lexeme hlexeme => exact absurd hpre (hnone _ (.inl ⟨_, hlexeme⟩))
  | stray hch =>
    obtain ⟨rfl, rfl⟩ := List.cons.inj heq
    exact .stray hch
  | openString => exact absurd (List.cons.inj heq).1 hquote

/-- A quote that begins no candidate is never closed. -/
private lemma not_mem_of_no_candidate {body : List Char}
    (hnone : ∀ front, IsCandidate front → ¬ front <+: '\x22' :: body) : '\x22' ∉ body := by
  rcases exists_close body with hopen | ⟨closed, rest, rfl, hclosed⟩
  · exact hopen
  · exact absurd ⟨rest, by simp⟩ (hnone _ (.inl ⟨_, .string hclosed⟩))

/-- Where longest matches find items, these are the items of the pieces.

**Proof sketch.** Induction on the rule. Each of its cases has the piece at the front that it
takes. -/
private lemma exists_splits_of_lexes {l : Location} {text : List Char} {found : List Item}
    (h : Lexes l text found) : ∃ ps, Splits text ps ∧ found = place l ps := by
  induction h with
  | finish => exact ⟨[], .nil, rfl⟩
  | @blank l ch rest found hch hrest ih =>
    obtain ⟨ps, hps, rfl⟩ := ih
    exact ⟨⟨.gap, [ch]⟩ :: ps, .cons (.blank hch) hps, by simp [Piece.item?]⟩
  | @comment l text rest found hcomment hlongest hrest ih =>
    obtain ⟨ps, hps, rfl⟩ := ih
    rcases hlongest.leads with ⟨-, hlead⟩ | ⟨kind, hkind, -⟩
    · exact ⟨⟨.gap, text⟩ :: ps, .cons hlead hps, by simp [Piece.item?]⟩
    · exact absurd hkind hcomment.not_isLexeme
  | @lexeme l kind text rest found hkind hlongest hrest ih =>
    obtain ⟨ps, hps, rfl⟩ := ih
    rcases hlongest.leads with ⟨hcomment, -⟩ | ⟨kind', hkind', hlead⟩
    · exact absurd hkind hcomment.not_isLexeme
    · obtain rfl := hkind.kind_unique hkind'
      exact ⟨⟨.lexeme kind, text⟩ :: ps, .cons hlead hps, by simp [Piece.item?]⟩
  | @openString l body found hnone hrest ih =>
    obtain ⟨ps, hps, rfl⟩ := ih
    refine ⟨⟨.openString, '\x22' :: body⟩ :: ps, ?_, by simp [Piece.item?]⟩
    simpa using Splits.cons (.openString (not_mem_of_no_candidate hnone)) hps
  | @stray l ch rest found hblank hquote hnone hrest ih =>
    obtain ⟨ps, hps, rfl⟩ := ih
    exact ⟨⟨.stray ch, [ch]⟩ :: ps, .cons (leads_of_no_candidate hblank hquote hnone) hps,
      by simp [Piece.item?]⟩

/-- The items of the pieces are found by longest matches.

**Proof sketch.** Induction on the pieces. No candidate goes beyond the piece at the front, so a
comment or a lexeme is the longest one, and before any other piece there is none. -/
private lemma Splits.lexes {text : List Char} {ps : List Piece} (h : Splits text ps)
    (l : Location) : Lexes l text (place l ps) := by
  induction h generalizing l with
  | nil => exact .finish
  | @cons p rest ps hlead hs ih =>
    rw [place_cons]
    cases hlead with
    | blank hch => exact .blank hch (ih _)
    | comment hcomment hend =>
      exact .comment hcomment
        ((Leads.comment hcomment hend).isLongestCandidate (.inr hcomment)) (ih _)
    | lexeme hlexeme hend =>
      exact .lexeme hlexeme
        ((Leads.lexeme hlexeme hend).isLongestCandidate (.inl ⟨_, hlexeme⟩)) (ih _)
    | @stray ch _ hch =>
      have none : ∀ front, IsCandidate front → ¬ front <+: ch :: rest := by
        intro front hfront hpre
        obtain ⟨a, others, heq, -, hstray⟩ := ((Leads.stray hch).candidate_le hfront hpre).1.front
        exact hstray ((List.cons.inj heq).1 ▸ hch)
      refine .stray ?_ ?_ none (ih _)
      · cases hblank : isBlank ch with
        | false => rfl
        | true => rw [classOf_of_isBlank hblank] at hch; cases hch
      · rintro rfl
        cases classOf_quote.symm.trans hch
    | @openString body hbody =>
      obtain rfl := hs.eq_nil
      have none : ∀ front, IsCandidate front → ¬ front <+: '\x22' :: body := by
        intro front hfront hpre
        have hquote := ((Leads.openString hbody).candidate_le hfront (by simpa using hpre)).1
        exact hbody hquote.quote_mem
      rw [List.append_nil]
      exact .openString none (ih _)

/-- Longest matches are the pieces of a text. -/
theorem lexes_iff_exists_splits (l : Location) (text : List Char) (found : List Item) :
    Lexes l text found ↔ ∃ ps, Splits text ps ∧ found = place l ps := by
  constructor
  · exact exists_splits_of_lexes
  · rintro ⟨ps, hps, rfl⟩
    exact hps.lexes l

/-- **A scanner yields the longest matches.** The rule of longest matches determines the items of
every text, and they are the ones that a scanner yields: in any number of calls it yields as many
of them, and the scan of a text sorts exactly them into tokens and errors.

**Proof sketch.** The text has pieces. Longest matches find the items of these pieces, and so does
the scanner; any other outcome of the rule comes from pieces of the same text as well, and the
items of a text do not depend on which pieces are given. -/
theorem lexes_iff_eq_items (source : String) :
    (∀ found, Lexes Location.start source.toList found ↔ found = items source) ∧
      (∀ n, ((Scanner.ofString source).take n).1 = (items source).take n) ∧
        (scanLogged source).value =
          ⟨(items source).filterMap Item.token?, (items source).filterMap Item.error?⟩ := by
  obtain ⟨ps, hps⟩ := exists_splits source.toList
  refine ⟨fun found => ?_, fun n => ?_, scanLogged_value source⟩
  · rw [lexes_iff_exists_splits]
    constructor
    · rintro ⟨qs, hqs, rfl⟩
      exact (items_of_splits hqs).symm
    · rintro rfl
      exact ⟨ps, hps, items_of_splits hps⟩
  · rw [take_of_splits hps, items_of_splits hps]

end LoxLex
