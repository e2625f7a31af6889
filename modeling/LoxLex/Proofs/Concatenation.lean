import LoxLex.Proofs.Placement

set_option relaxedAutoImplicit false
set_option autoImplicit false

/-!
# Pieces of a text that goes on

A piece sees at most two characters behind it, and the second of them only behind a point. So the
pieces in front of a place stay the same whatever stands behind the characters that they can see
there. In particular the pieces in front of a quote do not depend on whether the quote is ever
closed. And what ends at the end of a text also ends before a newline: two texts with a newline
between them are cut into the pieces of the one, the newline, and the pieces of the other.

## Main definitions

* `LoxLex.SameFront` — two texts look the same to a piece in front of them.
* `LoxLex.BlankedFront` — they do so but for blanks, and a blank ends every lexeme.
* `LoxLex.Piece.isSound` — a piece is no error.
* `LoxLex.Token.WellFormed` — a token has the kind of its lexeme.
* `LoxLex.Token.content`, `LoxLex.Scan.contents` — a token without its place, and all tokens of a
  text but the one for its end.

## Main results

* `LoxLex.Splits.change_behind` — a text may be changed behind what its pieces see.
* `LoxLex.Splits.append_newline` — the pieces of two texts with a newline between them.
* `LoxLex.wellFormed_of_mem_tokens` — the tokens of a scan are lexemes of their kinds.
* `LoxLex.errors_place_eq_nil_iff`, `LoxLex.contents_place` — errors and tokens do not depend on
  where pieces stand.
-/

namespace LoxLex

/-! ## What a piece sees behind it -/

/-- Two texts that look the same to a piece in front of them. -/
structure SameFront (z z' : List Char) : Prop where
  head : z.head? = z'.head?
  /-- Only behind a point does a second character count. -/
  second : z.head? = some '.' → z.tail.head? = z'.tail.head?

namespace SameFront

variable {z z' : List Char}

/-- A character that is no point hides what is behind it. -/
lemma of_ne_point {m : Char} (hm : m ≠ '.') (y y' : List Char) : SameFront (m :: y) (m :: y') :=
  ⟨rfl, fun hpoint => absurd (Option.some.inj hpoint) hm⟩

/-- Two characters hide what is behind them. -/
lemma of_two (a b : Char) (y y' : List Char) : SameFront (a :: b :: y) (a :: b :: y') :=
  ⟨rfl, fun _ => rfl⟩

/-- Texts that look the same do so behind more text as well. -/
lemma append_left (w : List Char) (h : SameFront z z') : SameFront (w ++ z) (w ++ z') := by
  rcases w with _ | ⟨a, _ | ⟨b, w⟩⟩
  · exact h
  · exact ⟨rfl, fun _ => h.head⟩
  · exact of_two a b (w ++ z) (w ++ z')

end SameFront

/-- A text that looks like another one to a lexeme in front of it, but for blanks: where the two
differ, there is a blank in the second one. -/
structure BlankedFront (z z' : List Char) : Prop where
  head : z'.head? = z.head? ∨ ∃ b, z'.head? = some b ∧ isBlank b = true
  /-- Only behind a point does a second character count. -/
  second : z.head? = some '.' → z'.head? = some '.' →
    z'.tail.head? = z.tail.head? ∨ ∃ b, z'.tail.head? = some b ∧ isBlank b = true

/-- Texts that look the same do so but for blanks. -/
lemma SameFront.blankedFront {z z' : List Char} (h : SameFront z z') : BlankedFront z z' :=
  ⟨.inl h.head.symm, fun hpoint _ => .inl (h.second hpoint).symm⟩

/-- A blank ends every lexeme: it is no character of an operator, of a number or of a word. -/
private lemma isBlank_ends {ch : Char} (h : isBlank ch = true) :
    ch ≠ '=' ∧ ch ≠ '/' ∧ ch ≠ '.' ∧ isDigit ch = false ∧ isWordPart ch = false := by
  have blanks : ch = ' ' ∨ ch = '\t' ∨ ch = '\r' ∨ ch = '\n' := by
    simpa [isBlank, or_assoc] using h
  rcases blanks with rfl | rfl | rfl | rfl <;> decide

namespace BlankedFront

variable {z z' : List Char}

/-- The first character is one of the other text, or a blank. -/
lemma head_cases (h : BlankedFront z z') {ch : Char} (hch : z'.head? = some ch) :
    z.head? = some ch ∨ isBlank ch = true := by
  rcases h.head with hsame | ⟨b, hb, hblank⟩
  · exact .inl (hsame ▸ hch)
  · obtain rfl : b = ch := Option.some.inj (hb.symm.trans hch)
    exact .inr hblank

/-- So is the character behind a point. -/
lemma second_cases {ch : Char} {others : List Char} (h : BlankedFront z ('.' :: ch :: others)) :
    (∃ others', z = '.' :: ch :: others') ∨ isBlank ch = true := by
  have hpoint : z.head? = some '.' :=
    (h.head_cases rfl).resolve_right fun hblank => (isBlank_ends hblank).2.2.1 rfl
  rcases h.second hpoint rfl with hsame | ⟨b, hb, hblank⟩
  · obtain ⟨tail, rfl⟩ := List.head?_eq_some_iff.1 hpoint
    obtain ⟨others', rfl⟩ := List.head?_eq_some_iff.1 (hsame.symm : tail.head? = some ch)
    exact .inl ⟨others', rfl⟩
  · obtain rfl : ch = b := Option.some.inj hb
    exact .inr hblank

/-- Texts that look the same but for blanks do so behind more text as well. -/
lemma append_left (w : List Char) (h : BlankedFront z z') :
    BlankedFront (w ++ z) (w ++ z') := by
  rcases w with _ | ⟨a, _ | ⟨b, w⟩⟩
  · exact h
  · exact ⟨.inl rfl, fun _ _ => h.head⟩
  · exact ⟨.inl rfl, fun _ _ => .inl rfl⟩

end BlankedFront

/-- What ends a lexeme depends on what is seen behind it, and blanks end all of them. -/
lemma Kind.EndsBefore.of_blankedFront {kind : Kind} {text z z' : List Char}
    (h : kind.EndsBefore text z) (hfront : BlankedFront z z') : kind.EndsBefore text z' := by
  have first : ∀ {P : Char → Prop}, (∀ ch, isBlank ch = true → P ch) →
      (∀ ch, z.head? = some ch → P ch) → ∀ ch, z'.head? = some ch → P ch := by
    intro P hblank hz ch hch
    exact (hfront.head_cases hch).elim (hz ch) (hblank ch)
  cases kind with
  | operator op =>
    refine ⟨fun hlonger hequal => ?_, fun hslash hhead => ?_⟩
    · exact first (fun _ hb => (isBlank_ends hb).1) (fun _ hch heq => h.1 hlonger (heq ▸ hch)) _
        hequal rfl
    · exact first (fun _ hb => (isBlank_ends hb).2.1) (fun _ hch heq => h.2 hslash (heq ▸ hch)) _
        hhead rfl
  | identifier | keyword => exact first (fun _ hb => (isBlank_ends hb).2.2.2.2) h
  | endOfInput => trivial
  | literal value =>
    cases value with
    | string => trivial
    | number =>
      refine ⟨first (fun _ hb => (isBlank_ends hb).2.2.2.1) h.1, fun hnone ch others heq => ?_⟩
      subst heq
      rcases hfront.second_cases with ⟨others', rfl⟩ | hblank
      · exact h.2 hnone ch others' rfl
      · exact (isBlank_ends hblank).2.2.2.1

/-- What ends a lexeme depends on what is seen behind it. -/
lemma Kind.EndsBefore.congr {kind : Kind} {text z z' : List Char} (hsame : SameFront z z')
    (h : kind.EndsBefore text z) : kind.EndsBefore text z' :=
  h.of_blankedFront hsame.blankedFront

/-- So does a piece at the front of a text. -/
lemma Leads.congr {p : Piece} {z z' : List Char} (hsame : SameFront z z') (h : Leads p z) :
    Leads p z' := by
  cases h with
  | blank h => exact .blank h
  | stray h => exact .stray h
  | comment h hend => exact .comment h (by simpa only [hsame.head] using hend)
  | lexeme h hend => exact .lexeme h (hend.congr hsame)
  | openString h =>
    obtain rfl : z' = [] := List.head?_eq_none_iff.1 hsame.head.symm
    exact .openString h

namespace Splits

/-- The first piece of a text, and what is left behind it. -/
lemma uncons {text : List Char} {p : Piece} {ps : List Piece} (h : Splits text (p :: ps)) :
    ∃ rest, text = p.text ++ rest ∧ Leads p rest ∧ Splits rest ps := by
  cases h with
  | cons hlead hs => exact ⟨_, rfl, hlead, hs⟩

/-- The pieces in front of a place stay the same if what stands there looks the same.

**Proof sketch.** Induction on the pieces in front. Behind each of them the two texts look the
same. -/
theorem change_behind {ps qs qs' : List Piece} {z z' : List Char} (hsame : SameFront z z')
    (h : Splits (textOf ps ++ z) (ps ++ qs)) (h' : Splits z' qs') :
    Splits (textOf ps ++ z') (ps ++ qs') := by
  induction ps with
  | nil => exact h'
  | cons p ps ih =>
    obtain ⟨rest, htext, hlead, hs⟩ := h.uncons
    rw [textOf_cons, List.append_assoc] at htext
    obtain rfl := List.append_cancel_left htext
    rw [textOf_cons, List.append_assoc]
    exact .cons (hlead.congr (hsame.append_left _)) (ih hs)

end Splits

/-! ## Going on behind a newline -/

/-- A lexeme that may end a text may be followed by a blank there.

**Proof sketch.** The blank stands where the text ended, be it at once or behind a point. -/
lemma Kind.EndsBefore.append_blank {kind : Kind} {text rest : List Char} {ch : Char}
    (h : kind.EndsBefore text rest) (hch : isBlank ch = true) (y : List Char) :
    kind.EndsBefore text (rest ++ ch :: y) := by
  refine h.of_blankedFront ?_
  rcases rest with _ | ⟨first, _ | ⟨second, rest⟩⟩
  · exact ⟨.inr ⟨ch, rfl, hch⟩, fun hpoint => by cases hpoint⟩
  · exact ⟨.inl rfl, fun _ _ => .inr ⟨ch, rfl, hch⟩⟩
  · exact ⟨.inl rfl, fun _ _ => .inl rfl⟩

/-- A piece that may end a text may be followed by a newline there, if it is no open string. -/
lemma Leads.append_newline {p : Piece} {rest : List Char} (h : Leads p rest)
    (hclosed : p.role ≠ .openString) (y : List Char) : Leads p (rest ++ '\n' :: y) := by
  cases h with
  | blank h => exact .blank h
  | stray h => exact .stray h
  | lexeme h hend => exact .lexeme h (hend.append_blank (by decide) y)
  | openString => exact absurd rfl hclosed
  | comment h hend =>
    refine .comment h ?_
    cases rest with
    | nil => simp
    | cons first rest => exact hend

namespace Splits

variable {text : List Char} {ps : List Piece}

/-- Behind a string that is left open there is no piece. -/
lemma openString_end {front behind : List Piece} {p : Piece} (h : Splits text (front ++ p :: behind))
    (hrole : p.role = .openString) :
    behind = [] ∧ ∃ body, p = ⟨.openString, '\x22' :: body⟩ ∧ '\x22' ∉ body := by
  have hlead := h.leads
  have hbehind : Splits (textOf behind) behind := by
    rw [← List.singleton_append, ← List.append_assoc] at h
    exact h.of_append
  generalize textOf behind = rest at hlead hbehind
  cases hlead with
  | openString hbody => exact ⟨hbehind.eq_nil, _, rfl, hbody⟩
  | _ => cases hrole

/-- A string that is left open is the last piece. -/
lemma openString_last (h : Splits text ps) (hopen : ∃ p ∈ ps, p.role = .openString) :
    ∃ front body, ps = front ++ [⟨.openString, '\x22' :: body⟩] ∧ '\x22' ∉ body := by
  obtain ⟨p, hp, hrole⟩ := hopen
  obtain ⟨front, behind, rfl⟩ := List.append_of_mem hp
  obtain ⟨rfl, body, rfl, hbody⟩ := h.openString_end hrole
  exact ⟨front, body, rfl, hbody⟩

/-- Two texts with a newline between them, the first of which leaves no string open, are cut into
the pieces of the first one, the newline, and the pieces of the second one.

**Proof sketch.** Induction on the pieces of the first text. Each of them may be followed by a
newline where the text ends. -/
theorem append_newline {rest : List Char} {qs : List Piece} (h : Splits text ps)
    (hclosed : ∀ p ∈ ps, p.role ≠ .openString) (hrest : Splits rest qs) :
    Splits (text ++ '\n' :: rest) (ps ++ ⟨.gap, ['\n']⟩ :: qs) := by
  induction h with
  | nil => exact .cons (.blank (by decide)) hrest
  | cons hlead hs ih =>
    obtain ⟨hp, hps⟩ := List.forall_mem_cons.1 hclosed
    rw [List.append_assoc]
    exact .cons (hlead.append_newline hp rest) (ih hps)

end Splits

/-! ## Errors and tokens without their places -/

/-- Whether a piece is no error. -/
def Piece.isSound (p : Piece) : Bool :=
  match p.role with
  | .gap | .lexeme _ => true
  | .stray _ | .openString => false

/-- What a token says wherever it stands: its kind with the value of a literal, its lexeme, and its
line in a token dump. -/
def Token.content (t : Token) : Kind × String × String := (t.kind, t.lexeme, t.canonical)

/-- What the token of a piece says, if the piece is one. -/
def Piece.content? (p : Piece) : Option (Kind × String × String) :=
  match p.role with
  | .lexeme kind => some (Token.content ⟨kind, String.ofList p.text, Span.empty Location.start⟩)
  | .gap | .stray _ | .openString => none

/-- Wherever pieces stand, there are no errors just if all of them are sound. -/
lemma errors_place_eq_nil_iff (l : Location) (ps : List Piece) :
    (Scan.ofItems (place l ps)).errors = [] ↔ ∀ p ∈ ps, p.isSound = true := by
  induction ps generalizing l with
  | nil => simp [Scan.ofItems, endItem, Item.error?]
  | cons p ps ih =>
    rw [List.forall_mem_cons, ← ih (l.after p.text), errors_place_cons]
    cases hp : p.role <;> simp [Piece.item?, Piece.isSound, Item.error?, hp]

/-- The last token is the end of the text. -/
lemma tokens_place (l : Location) (ps : List Piece) :
    (Scan.ofItems (place l ps)).tokens =
      (itemsOf l ps).filterMap Item.token? ++
        [⟨.endOfInput, "", Span.empty (l.after (textOf ps))⟩] := by
  simp [Scan.ofItems, place, endItem, Item.token?]

/-- A token is a lexeme of its kind, or it stands for the end of a text and has no characters. -/
def Token.WellFormed (t : Token) : Prop :=
  IsLexeme t.kind t.lexeme.toList ∨ t.kind = .endOfInput ∧ t.lexeme = ""

/-- The tokens of a scan are well-formed. -/
lemma wellFormed_of_mem_tokens {source : String} {t : Token} (h : t ∈ (scan source).tokens) :
    t.WellFormed := by
  obtain ⟨ps, hps⟩ := exists_splits source.toList
  rw [scan_of_splits hps, tokens_place] at h
  rcases List.mem_append.1 h with h | h
  · obtain ⟨item, hitem, ht⟩ := List.mem_filterMap.1 h
    obtain ⟨before, p, behind, rfl, hp⟩ := exists_piece_of_mem hitem
    have hlead := hps.leads
    generalize textOf behind = rest at hlead
    cases hlead with
    | lexeme hlexeme =>
      cases hp
      cases ht
      exact .inl (String.toList_ofList.symm ▸ hlexeme)
    | blank | comment => cases hp
    | stray | openString =>
      cases hp
      cases ht
  · obtain rfl := List.mem_singleton.1 h
    exact .inr ⟨rfl, rfl⟩

/-- The tokens of a scan are lexemes of their kinds. -/
lemma isLexeme_of_mem_tokens {source : String} {t : Token} (h : t ∈ (scan source).tokens)
    (hend : t.isEnd = false) : IsLexeme t.kind t.lexeme.toList := by
  refine (wellFormed_of_mem_tokens h).resolve_right fun hlast => ?_
  rw [Token.isEnd, hlast.1] at hend
  cases hend

/-- Wherever pieces stand, their tokens say the same, one after the other. -/
lemma contents_place (l : Location) (ps : List Piece) :
    (Scan.ofItems (place l ps)).tokens.dropLast.map Token.content =
      ps.filterMap Piece.content? := by
  rw [tokens_place, List.dropLast_concat]
  induction ps generalizing l with
  | nil => rfl
  | cons p ps ih =>
    rw [itemsOf, List.filterMap_append, List.map_append, ih]
    cases hp : p.role <;> simp [Piece.item?, Piece.content?, Item.token?, hp]
    rfl

/-- A text has no errors just if its pieces are sound. -/
lemma errors_eq_nil_iff {source : String} {ps : List Piece} (h : Splits source.toList ps) :
    (scan source).errors = [] ↔ ∀ p ∈ ps, p.isSound = true := by
  rw [scan_of_splits h, errors_place_eq_nil_iff]

/-- What the tokens of a text say, without the one for its end. -/
def Scan.contents (r : Scan) : List (Kind × String × String) := r.tokens.dropLast.map Token.content

/-- The contents of a text are those of its pieces. -/
lemma contents_eq {source : String} {ps : List Piece} (h : Splits source.toList ps) :
    (scan source).contents = ps.filterMap Piece.content? := by
  rw [Scan.contents, scan_of_splits h, contents_place]

end LoxLex
