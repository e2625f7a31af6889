import LoxLex.Proofs.Concatenation

set_option relaxedAutoImplicit false
set_option autoImplicit false

/-!
# Texts written from tokens

The lexeme of a token is scanned to the same token again, whatever text it was taken from, as soon
as a blank or the end of the text stands behind it. So tokens may be written down one after the
other, with blanks and comments between them, and a scan finds them again.

## Main definitions

* `LoxLex.IsSeparator` — what may stand between lexemes.
* `LoxLex.unparse` — the text of tokens with separators between them.
* `LoxLex.Layout` — the separators keep the lexemes apart.

## Main results

* `LoxLex.Layout.splits` — the pieces of tokens with separators between them.
* `LoxLex.scan_unparse` — a scan finds the tokens that a text was written from.
-/

namespace LoxLex

/-! ## Texts with separators -/

/-- What may stand between lexemes: blanks, and comments with the newlines that end them. -/
inductive IsSeparator : List Char → Prop where
  | nil : IsSeparator []
  | blank {ch : Char} {text : List Char} (h : isBlank ch = true) (htext : IsSeparator text) :
    IsSeparator (ch :: text)
  | comment {line text : List Char} (h : IsComment line) (htext : IsSeparator text) :
    IsSeparator (line ++ '\n' :: text)

/-- The text of tokens, each with a separator behind it, and with one more in front of them. -/
def unparse (front : String) (parts : List (Token × String)) : String :=
  front ++ String.join (parts.map fun part => part.1.lexeme ++ part.2)

/-- The separators behind the tokens keep them apart. -/
structure Layout (parts : List (Token × String)) : Prop where
  separator : ∀ part ∈ parts, IsSeparator part.2.toList
  /-- A separator begins with a blank, if there is one at all. -/
  begins : ∀ part ∈ parts, part.2.toList.head?.all isBlank = true
  /-- Only behind the last token there may be none. -/
  apart : ∀ part ∈ parts.dropLast, part.2 ≠ ""

/-! ## Lexemes and separators as pieces -/

/-- Every lexeme may end a text. -/
lemma Kind.endsBefore_nil (kind : Kind) (text : List Char) : kind.EndsBefore text [] := by
  cases kind with
  | literal value => cases value <;> simp [EndsBefore]
  | _ => simp [EndsBefore]

/-- A separator in front of a text is cut into blanks and comments.

**Proof sketch.** Induction on the separator. A comment ends before its newline, which is a blank by
itself. -/
lemma IsSeparator.splits {text rest : List Char} {ps : List Piece} (h : IsSeparator text)
    (hrest : Splits rest ps) :
    ∃ gaps, (∀ g ∈ gaps, g.role = .gap) ∧ Splits (text ++ rest) (gaps ++ ps) := by
  induction h with
  | nil => exact ⟨[], by simp, hrest⟩
  | @blank ch text hch htext ih =>
    obtain ⟨gaps, hgaps, hs⟩ := ih
    exact ⟨⟨.gap, [ch]⟩ :: gaps, by simpa using hgaps, .cons (.blank hch) hs⟩
  | @comment line text hline htext ih =>
    obtain ⟨gaps, hgaps, hs⟩ := ih
    have hnewline : Splits ('\n' :: (text ++ rest)) (⟨.gap, ['\n']⟩ :: (gaps ++ ps)) :=
      .cons (.blank (by decide)) hs
    refine ⟨⟨.gap, line⟩ :: ⟨.gap, ['\n']⟩ :: gaps, by simpa using hgaps, ?_⟩
    rw [List.append_assoc]
    exact .cons (.comment hline (by simp)) hnewline

/-- Blanks and comments are no errors and say nothing. -/
lemma sound_of_gaps {gaps : List Piece} (h : ∀ g ∈ gaps, g.role = .gap) :
    (∀ g ∈ gaps, g.isSound = true) ∧ gaps.filterMap Piece.content? = [] := by
  refine ⟨fun g hg => ?_, List.filterMap_eq_nil_iff.2 fun g hg => ?_⟩
  · rw [Piece.isSound, h g hg]
  · rw [Piece.content?, h g hg]

/-- Tokens with separators between them are cut into their lexemes and into blanks and comments.

**Proof sketch.** Induction on the tokens. Behind the first one stands a blank, or it is the last
one and the text ends there; in both cases its lexeme ends. -/
theorem Layout.splits {parts : List (Token × String)} (h : Layout parts)
    (hlexemes : ∀ part ∈ parts, IsLexeme part.1.kind part.1.lexeme.toList) :
    ∃ ps, Splits (String.join (parts.map fun part => part.1.lexeme ++ part.2)).toList ps ∧
      (∀ p ∈ ps, p.isSound = true) ∧
      ps.filterMap Piece.content? = parts.map fun part => part.1.content := by
  induction parts with
  | nil => exact ⟨[], splits_empty, by simp, rfl⟩
  | cons part parts ih =>
    obtain ⟨t, separator⟩ := part
    obtain ⟨ht, hlexemes⟩ := List.forall_mem_cons.1 hlexemes
    obtain ⟨hseparator, hseparators⟩ := List.forall_mem_cons.1 h.separator
    obtain ⟨hbegin, hbegins⟩ := List.forall_mem_cons.1 h.begins
    have hothers : Layout parts := by
      refine ⟨hseparators, hbegins, fun p hp => h.apart p ?_⟩
      rw [List.dropLast_cons_of_ne_nil (by rintro rfl; cases hp)]
      exact List.mem_cons_of_mem _ hp
    obtain ⟨ps, hps, hsound, hcontent⟩ := ih hothers hlexemes
    obtain ⟨gaps, hgaps, hs⟩ := hseparator.splits hps
    have hend : t.kind.EndsBefore t.lexeme.toList
        (separator.toList ++ (String.join (parts.map fun part => part.1.lexeme ++ part.2)).toList) := by
      cases hchars : separator.toList with
      | nil =>
        have hlast : parts = [] := by
          by_contra hne
          refine h.apart (t, separator) ?_ (String.toList_eq_nil_iff.1 hchars)
          rw [List.dropLast_cons_of_ne_nil hne]
          exact List.mem_cons_self
        subst hlast
        exact Kind.endsBefore_nil _ _
      | cons ch chars =>
        have hblank : isBlank ch = true := by simpa [hchars] using hbegin
        exact (Kind.endsBefore_nil _ _).append_blank hblank _
    obtain ⟨hgapsSound, hgapsContent⟩ := sound_of_gaps hgaps
    refine ⟨⟨.lexeme t.kind, t.lexeme.toList⟩ :: (gaps ++ ps), ?_, ?_, ?_⟩
    · simpa using Splits.cons (.lexeme ht hend) hs
    · exact List.forall_mem_cons.2 ⟨rfl, List.forall_mem_append.2 ⟨hgapsSound, hsound⟩⟩
    · simp [Piece.content?, hgapsContent, hcontent, Token.content, Token.canonical, Token.literal?]

/-! ## Scanning what was written -/

/-- **A scan finds the tokens that a text was written from.** Take tokens of any scans and write
their lexemes one after the other, with blanks and comments in front of the first one and behind
each of them. If what is behind a token begins with a blank, or is empty behind the last one, then
the scan of the text has no errors, and its tokens have the kinds with the values, and the lexemes,
of those that were written, with the end of the text behind them.

**Proof sketch.** The text is cut into the lexemes and the blanks and comments between them, none of
which is an error. -/
theorem scan_unparse (front : String) (parts : List (Token × String))
    (hfront : IsSeparator front.toList) (hlayout : Layout parts)
    (htokens : ∀ part ∈ parts, ∃ source, part.1 ∈ (scan source).tokens ∧ part.1.isEnd = false) :
    (scan (unparse front parts)).errors = [] ∧
      (scan (unparse front parts)).tokens.map (fun t => (t.kind, t.lexeme)) =
        parts.map (fun part => (part.1.kind, part.1.lexeme)) ++ [(.endOfInput, "")] := by
  have hlexemes : ∀ part ∈ parts, IsLexeme part.1.kind part.1.lexeme.toList := by
    intro part hpart
    obtain ⟨source, ht, hend⟩ := htokens part hpart
    exact isLexeme_of_mem_tokens ht hend
  obtain ⟨ps, hps, hsound, hcontent⟩ := hlayout.splits hlexemes
  obtain ⟨gaps, hgaps, hs⟩ := hfront.splits hps
  obtain ⟨hgapsSound, hgapsContent⟩ := sound_of_gaps hgaps
  have hwhole : Splits (unparse front parts).toList (gaps ++ ps) := by
    rwa [unparse, String.toList_append]
  refine ⟨(errors_eq_nil_iff hwhole).2 (List.forall_mem_append.2 ⟨hgapsSound, hsound⟩), ?_⟩
  have hcontents : (scan (unparse front parts)).contents =
      parts.map fun part => part.1.content := by
    rw [contents_eq hwhole, List.filterMap_append, hgapsContent, hcontent, List.nil_append]
  rw [Scan.contents, scan_of_splits hwhole, tokens_place, List.dropLast_concat] at hcontents
  have hsame := congrArg (List.map fun content => (content.1, content.2.1)) hcontents
  rw [List.map_map, List.map_map] at hsame
  rw [scan_of_splits hwhole, tokens_place, List.map_append]
  exact congrArg (· ++ [(Kind.endOfInput, "")]) hsame

/-- A digit and a point from a text with an error, each in a line of its own; a slash with a comment
behind it, in which there is a quote; and, at the end of the text, a string over two lines in which
a comment seems to begin. -/
theorem scan_unparse_of_comments :
    (scan (unparse "//\n"
        [(⟨.literal (.number ⟨false, 0x3FF0000000000000, by decide⟩), "1", ⟨⟨1, 2⟩, ⟨1, 3⟩⟩⟩, "\n"),
          (⟨.operator .dot, ".", ⟨⟨1, 3⟩, ⟨1, 4⟩⟩⟩, "\r\n"),
          (⟨.operator .slash, "/", ⟨⟨1, 1⟩, ⟨1, 2⟩⟩⟩, " //\"\n"),
          (⟨.literal (.string "a\n//"), "\"a\n//\"", ⟨⟨1, 1⟩, ⟨2, 4⟩⟩⟩, "")])).errors = [] ∧
      (scan "//\n1\n.\r\n/ //\"\n\"a\n//\"").tokens.map (fun t => (t.kind, t.lexeme)) =
        [(.literal (.number ⟨false, 0x3FF0000000000000, by decide⟩), "1"), (.operator .dot, "."),
          (.operator .slash, "/"), (.literal (.string "a\n//"), "\"a\n//\""),
          (.endOfInput, "")] := by
  have hfront : IsSeparator "//\n".toList := .comment ⟨[], rfl, by simp⟩ .nil
  have hcomment : IsSeparator " //\"\n".toList :=
    .blank (by decide) (.comment ⟨['\x22'], rfl, by decide⟩ .nil)
  have hreturn : IsSeparator "\r\n".toList := .blank (by decide) (.blank (by decide) .nil)
  have hnewline : IsSeparator "\n".toList := .blank (by decide) .nil
  have hnone : IsSeparator "".toList := .nil
  refine scan_unparse "//\n" _ hfront ⟨?_, ?_, ?_⟩ ?_
  · simpa using ⟨hnewline, hreturn, hcomment, hnone⟩
  · decide +kernel
  · decide +kernel
  · simp only [List.forall_mem_cons]
    exact ⟨⟨"@1.", by decide +kernel⟩, ⟨"@1.", by decide +kernel⟩, ⟨"/", by decide +kernel⟩,
      ⟨"\"a\n//\"", by decide +kernel⟩, by simp⟩

end LoxLex
