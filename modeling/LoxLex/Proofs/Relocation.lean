import LoxLex.Proofs.Concatenation

set_option relaxedAutoImplicit false
set_option autoImplicit false

/-!
# Items in another place

The items of pieces depend on where the pieces stand by their spans alone. So the items of a text
that stands behind other text are those of the text by itself, moved; and behind a newline they are
moved by whole lines.

## Main definitions

* `LoxLex.Item.relocate` — an item with its locations moved, and so for tokens and errors.
* `LoxLex.Location.addLines` — the location some lines further down.

## Main results

* `LoxLex.place_relocate` — the items of pieces that stand elsewhere.
* `LoxLex.scan_append_newline` — the scan of two texts with a newline between them.
-/

namespace LoxLex

/-! ## Moving items -/

/-- A span with both of its ends moved. -/
def Span.relocate (f : Location → Location) (s : Span) : Span := ⟨f s.start, f s.stop⟩

/-- A token with its place moved. -/
def Token.relocate (f : Location → Location) (t : Token) : Token :=
  { t with span := t.span.relocate f }

/-- An error with its place moved. -/
def LexError.relocate (f : Location → Location) : LexError → LexError
  | .unexpectedCharacter ch span => .unexpectedCharacter ch (span.relocate f)
  | .unterminatedString span => .unterminatedString (span.relocate f)

/-- An item with its place moved. -/
def Item.relocate (f : Location → Location) : Item → Item
  | .token t => .token (t.relocate f)
  | .error e => .error (e.relocate f)

/-- Items are sorted into tokens and errors in two parts. -/
lemma Scan.ofItems_append (found others : List Item) :
    ofItems (found ++ others) =
      ⟨(ofItems found).tokens ++ (ofItems others).tokens,
        (ofItems found).errors ++ (ofItems others).errors⟩ := by
  simp [ofItems]

/-- Moving items does not change which of them are tokens and which are errors. -/
lemma Scan.ofItems_relocate (f : Location → Location) (found : List Item) :
    Scan.ofItems (found.map (Item.relocate f)) =
      ⟨(Scan.ofItems found).tokens.map (Token.relocate f),
        (Scan.ofItems found).errors.map (LexError.relocate f)⟩ := by
  induction found with
  | nil => rfl
  | cons item found ih =>
    simp only [Scan.ofItems, Scan.mk.injEq] at ih ⊢
    cases item with
    | token t => exact ⟨congrArg (t.relocate f :: ·) ih.1, ih.2⟩
    | error e => exact ⟨ih.1, congrArg (e.relocate f :: ·) ih.2⟩

/-- Pieces that stand at `m` have the items of pieces that stand at `l`, moved as the places behind
`l` are moved to those behind `m`.

**Proof sketch.** Induction on the pieces. Both ends of the first piece are places behind `l`. -/
lemma place_relocate {f : Location → Location} {l m : Location}
    (h : ∀ before, f (l.after before) = m.after before) (ps : List Piece) :
    place m ps = (place l ps).map (Item.relocate f) := by
  induction ps generalizing l m with
  | nil =>
    have hstart : f l = m := h []
    simp [endItem, Item.relocate, Token.relocate, Span.relocate, Span.empty, hstart]
  | cons p ps ih =>
    have hstart : f l = m := h []
    have hitem : p.item? m = (p.item? l).map (Item.relocate f) := by
      cases hp : p.role <;>
        simp [Piece.item?, hp, Item.relocate, Token.relocate, LexError.relocate, Span.relocate,
          hstart, h p.text]
    have hrest := ih (l := l.after p.text) (m := m.after p.text) fun before => by
      rw [← Location.after_append, ← Location.after_append, h]
    rw [place_cons, place_cons, List.map_append, ← hrest, hitem]
    cases p.item? l <;> rfl

/-! ## Moving by lines -/

namespace Location

/-- The location in the same column `n` lines further down. -/
def addLines (n : Nat) (l : Location) : Location := ⟨l.line + n, l.col⟩

/-- Walking over a text leads to the same place further down. -/
lemma addLines_after (n : Nat) (l : Location) (text : List Char) :
    (l.after text).addLines n = (l.addLines n).after text := by
  induction text generalizing l with
  | nil => rfl
  | cons ch text ih =>
    have hstep : (l.step ch).addLines n = (l.addLines n).step ch := by
      simp only [step, addLines]
      split
      · simp only [mk.injEq, and_true]
        omega
      · rfl
    rw [after_cons, after_cons, ih, hstep]

/-- Behind a newline a text begins as many lines further down as the line of the newline tells. -/
lemma after_newline (l : Location) : l.after ['\n'] = start.addLines l.line := by
  rw [after_cons, after_nil, step, if_pos rfl, addLines, start, Nat.add_comm]

end Location

/-! ## Two texts with a newline between them -/

/-- A text whose errors have no open string among them is cut into pieces none of which is open. -/
lemma closed_of_errors {l : Location} {ps : List Piece}
    (h : ∀ span, .unterminatedString span ∉ (Scan.ofItems (place l ps)).errors) :
    ∀ p ∈ ps, p.role ≠ .openString := by
  induction ps generalizing l with
  | nil => simp
  | cons p ps ih =>
    rw [errors_place_cons] at h
    have hrest := ih (l := l.after p.text) fun span hspan => h span (List.mem_append_right _ hspan)
    refine List.forall_mem_cons.2 ⟨fun hopen => ?_, hrest⟩
    refine h ⟨l, l.after p.text⟩ (List.mem_append_left _ ?_)
    simp [Piece.item?, hopen, Item.error?]

/-- **Scanning line by line.** Two texts with a newline between them, the first of which leaves no
string open, are scanned one after the other: the tokens of the first one, without the one for its
end, and then those of the second one, as many lines further down as the end of the first text
tells; and the errors likewise.

**Proof sketch.** The pieces of the whole text are those of the first one, the newline, and those of
the second one. The newline is no item, and the second text begins at the start of the line behind
it. -/
theorem scan_append_newline (a b : String)
    (h : ∀ span, .unterminatedString span ∉ (scan a).errors) :
    ∃ front stop, (scan a).tokens = front ++ [stop] ∧ stop.kind = .endOfInput ∧
      (scan (a ++ "\n" ++ b)).tokens =
        front ++ (scan b).tokens.map (Token.relocate (Location.addLines stop.line)) ∧
      (scan (a ++ "\n" ++ b)).errors =
        (scan a).errors ++ (scan b).errors.map (LexError.relocate (Location.addLines stop.line)) := by
  obtain ⟨ps, hps⟩ := exists_splits a.toList
  obtain ⟨qs, hqs⟩ := exists_splits b.toList
  rw [scan_of_splits hps] at h ⊢
  have hwhole : Splits (a ++ "\n" ++ b).toList (ps ++ ⟨.gap, ['\n']⟩ :: qs) := by
    simpa using hps.append_newline (closed_of_errors h) hqs
  set last := Location.start.after (textOf ps)
  have hplace : place Location.start (ps ++ ⟨.gap, ['\n']⟩ :: qs) =
      itemsOf Location.start ps ++
        (place Location.start qs).map (Item.relocate (Location.addLines last.line)) := by
    have hbehind := place_relocate (Location.addLines_after last.line Location.start) qs
    rw [place_append, place_cons, ← hbehind, ← Location.after_newline]
    rfl
  have herrors : (Scan.ofItems (place Location.start ps)).errors =
      (Scan.ofItems (itemsOf Location.start ps)).errors := by
    rw [place, Scan.ofItems_append]
    exact List.append_nil _
  refine ⟨_, _, tokens_place Location.start ps, rfl, ?_, ?_⟩ <;>
    rw [scan_of_splits hwhole, scan_of_splits hqs, hplace, Scan.ofItems_append,
      Scan.ofItems_relocate]
  · rfl
  · rw [herrors]
    rfl

/-- A point, an error and a comment with a quote in it before the newline; a digit, a string over
two lines and an error behind it. -/
theorem scan_append_newline_of_comment :
    (∀ span, .unterminatedString span ∉ (scan "1. ~ // \"").errors) ∧
      (scan ("1. ~ // \"" ++ "\n" ++ "5\"p\nq\" $")).tokens.map (fun t => (t.lexeme, t.span)) =
        [("1", ⟨⟨1, 1⟩, ⟨1, 2⟩⟩), (".", ⟨⟨1, 2⟩, ⟨1, 3⟩⟩), ("5", ⟨⟨2, 1⟩, ⟨2, 2⟩⟩),
          ("\"p\nq\"", ⟨⟨2, 2⟩, ⟨3, 3⟩⟩), ("", ⟨⟨3, 5⟩, ⟨3, 5⟩⟩)] ∧
      (scan ("1. ~ // \"" ++ "\n" ++ "5\"p\nq\" $")).errors =
        [.unexpectedCharacter '~' ⟨⟨1, 4⟩, ⟨1, 5⟩⟩,
          .unexpectedCharacter '$' ⟨⟨3, 4⟩, ⟨3, 5⟩⟩] := by
  have hfirst : (scan "1. ~ // \"").errors = [.unexpectedCharacter '~' ⟨⟨1, 4⟩, ⟨1, 5⟩⟩] := by
    decide +kernel
  have hclosed : ∀ span, .unterminatedString span ∉ (scan "1. ~ // \"").errors := by
    simp [hfirst]
  obtain ⟨front, stop, hfront, -, htokens, herrors⟩ :=
    scan_append_newline "1. ~ // \"" "5\"p\nq\" $" hclosed
  have hline : stop.line = 1 := by
    have hlast : (scan "1. ~ // \"").tokens.getLast?.map Token.line = some 1 := by decide +kernel
    simpa [hfront] using hlast
  have hdrop : front = (scan "1. ~ // \"").tokens.dropLast := by
    rw [hfront, List.dropLast_concat]
  refine ⟨hclosed, ?_, ?_⟩
  · rw [htokens, hline, hdrop]
    decide +kernel
  · rw [herrors, hline]
    decide +kernel

end LoxLex
