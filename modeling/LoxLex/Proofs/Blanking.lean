import LoxLex.Proofs.Concatenation
import LoxLex.Proofs.SourceSpans

set_option relaxedAutoImplicit false
set_option autoImplicit false

/-!
# Errors and comments act as blanks

Take a text and write a blank over each character of its comments and over each character that is
reported as an error. What is left is scanned to the same tokens at the same places, and a string
that is never closed is still reported; nothing else is. So neither a comment nor a stray character
swallows, splits, joins or moves a token.

## Main definitions

* `LoxLex.reportMarks` — which characters of a text are reported as errors by themselves.
* `LoxLex.blankOut` — a text with blanks over its comments and its stray characters.
* `LoxLex.Piece.blanked` — what is left of a piece.

## Main results

* `LoxLex.Splits.blankOut_eq` — a text is blanked out piece by piece.
* `LoxLex.Splits.blanked` — what is left of the pieces of a text are the pieces of what is left.
* `LoxLex.place_blanked` — their items are those of the text without its stray characters.
* `LoxLex.scan_blankOut` — the scan of a text that is blanked out.
-/

namespace LoxLex

/-! ## Writing blanks over characters -/

/-- Whether a region is a comment. -/
def Region.isComment : Region → Bool
  | comment => true
  | code | string => false

/-- Whether an error is about the single character at a location. -/
def LexError.isStrayAt (l : Location) : LexError → Bool
  | unexpectedCharacter _ span => span.start == l
  | unterminatedString _ => false

/-- For each character of a text that begins at a location whether one of the errors is about it. -/
def reportMarks (errors : List LexError) : Location → List Char → List Bool
  | _, [] => []
  | l, ch :: text => errors.any (LexError.isStrayAt l) :: reportMarks errors (l.step ch) text

/-- The characters of a text with a blank in place of each one that is marked. -/
def blankWhere (marks : List Bool) (text : List Char) : List Char :=
  List.zipWith (fun marked ch => if marked then ' ' else ch) marks text

/-- A text with a blank in place of each character that belongs to a comment, or that the scan of
the text reports as an error by itself. -/
def blankOut (source : String) : String :=
  let text := source.toList
  let comments := (regions .code text).map Region.isComment
  let reports := reportMarks (scan source).errors Location.start text
  String.ofList (blankWhere (List.zipWith (· || ·) comments reports) text)

example : blankOut "1@.5 \"@//\" a//é\n" = "1 .5 \"@//\" a   \n" := by decide +kernel

/-! ## Which characters of a piece are blanked out -/

/-- Whether a piece is a character of no use. -/
def Piece.isStray (p : Piece) : Bool :=
  match p.role with
  | .stray _ => true
  | .gap | .lexeme _ | .openString => false

/-- Whether a piece is blanked out. -/
def Piece.isVoid (p : Piece) : Bool := p.region.isComment || p.isStray

/-- What is left of a piece: itself, or as many blanks as it has characters. -/
def Piece.blanked (p : Piece) : List Piece :=
  if p.isVoid then List.replicate p.text.length ⟨.gap, [' ']⟩ else [p]

/-- The marks of a text in two parts are those of the parts. -/
lemma reportMarks_append (errors : List LexError) (l : Location) (a b : List Char) :
    reportMarks errors l (a ++ b) = reportMarks errors l a ++ reportMarks errors (l.after a) b := by
  induction a generalizing l with
  | nil => rfl
  | cons ch a ih => simp [reportMarks, ih]

/-- Only errors about characters of the text matter for its marks. -/
lemma reportMarks_congr {errors others : List LexError} {l : Location} {text : List Char}
    (h : ∀ before behind, text = before ++ behind → behind ≠ [] →
      errors.any (LexError.isStrayAt (l.after before)) =
        others.any (LexError.isStrayAt (l.after before))) :
    reportMarks errors l text = reportMarks others l text := by
  induction text generalizing l with
  | nil => rfl
  | cons ch text ih =>
    have hfirst := h [] (ch :: text) rfl (List.cons_ne_nil ch text)
    have hrest := ih (l := l.step ch) fun before behind heq hne =>
      h (ch :: before) behind (by rw [heq, List.cons_append]) hne
    rw [Location.after_nil] at hfirst
    rw [reportMarks, reportMarks, hfirst, hrest]

/-- An error about the single character at a location begins there. -/
lemma LexError.start_of_isStrayAt {l : Location} {e : LexError} (h : e.isStrayAt l = true) :
    e.span.start = l := by
  cases e with
  | unexpectedCharacter ch span => exact beq_iff_eq.1 h
  | unterminatedString span => cases h

/-- Errors that begin elsewhere are not about the character at a location. -/
lemma any_isStrayAt_eq_false {errors : List LexError} {l : Location}
    (h : ∀ e ∈ errors, l < e.span.start ∨ e.span.start < l) :
    errors.any (LexError.isStrayAt l) = false := by
  rw [List.any_eq_false]
  intro e he hat
  rcases h e he with hlt | hlt <;>
    exact Location.not_lt.2 (Location.le_refl _) (LexError.start_of_isStrayAt hat ▸ hlt)

/-- No error of pieces begins before the pieces do. -/
lemma le_start_of_mem_errors {l : Location} {ps : List Piece} {e : LexError}
    (h : e ∈ (Scan.ofItems (place l ps)).errors) : l ≤ e.span.start := by
  obtain ⟨item, hitem, he⟩ := List.mem_filterMap.1 h
  cases item with
  | token t => cases he
  | error e' =>
    obtain rfl := Option.some.inj he
    exact le_start_of_mem_place hitem

/-- Errors that are about no single character mark nothing. -/
lemma reportMarks_of_no_stray {errors : List LexError}
    (h : ∀ e ∈ errors, ∀ l, e.isStrayAt l = false) (l : Location) (text : List Char) :
    reportMarks errors l text = List.replicate text.length false := by
  induction text generalizing l with
  | nil => rfl
  | cons ch text ih =>
    have hnone : errors.any (LexError.isStrayAt l) = false := by
      rw [List.any_eq_false]
      intro e he
      simp [h e he l]
    rw [reportMarks, hnone, ih]
    rfl

/-- The error of a piece is about each of its characters just if it is a character of no use. -/
lemma Leads.reportMarks_self {p : Piece} {rest : List Char} (h : Leads p rest) (l : Location) :
    reportMarks ((p.item? l).bind Item.error?).toList l p.text =
      List.replicate p.text.length p.isStray := by
  cases h with
  | stray => simp [reportMarks, Piece.item?, Item.error?, LexError.isStrayAt, Piece.isStray]
  | _ =>
    exact reportMarks_of_no_stray (by simp [Piece.item?, Item.error?, LexError.isStrayAt]) l _

/-- In the first piece of a text the first error is all that counts, and behind it the others are.

**Proof sketch.** The errors of the other pieces begin behind the first piece, and its own error
begins with it. -/
lemma Leads.reportMarks_append {p : Piece} {rest : List Char} (h : Leads p rest) (l : Location)
    (ps : List Piece) :
    reportMarks (Scan.ofItems (place l (p :: ps))).errors l (p.text ++ rest) =
      List.replicate p.text.length p.isStray ++
        reportMarks (Scan.ofItems (place (l.after p.text) ps)).errors (l.after p.text) rest := by
  rw [errors_place_cons, LoxLex.reportMarks_append, ← h.reportMarks_self l]
  congr 1
  · refine reportMarks_congr fun before behind htext hne => ?_
    rw [List.any_append, Bool.or_eq_left_iff_imp, any_isStrayAt_eq_false]
    · exact fun hfalse => absurd hfalse Bool.false_ne_true
    · intro e he
      have hbefore : l.after before < l.after p.text := by
        rw [htext, Location.after_append]
        exact Location.lt_after _ hne
      exact .inl (Location.lt_of_lt_of_le hbefore (le_start_of_mem_errors he))
  · refine reportMarks_congr fun before behind _ _ => ?_
    rw [List.any_append, any_isStrayAt_eq_false, Bool.false_or]
    intro e he
    obtain ⟨item, hitem, he⟩ := Option.bind_eq_some_iff.1 (Option.mem_toList.1 he)
    cases item with
    | token t => cases he
    | error e' =>
      obtain rfl := Option.some.inj he
      have hstart : e'.span.start = l := congrArg Span.start (Piece.span_of_item? hitem)
      rw [hstart, ← Location.after_append]
      exact .inr (l.lt_after (by simp [h.text_ne_nil]))

/-! ## What is left of the pieces of a text -/

/-- The text of some blanks. -/
lemma textOf_blanks (n : Nat) :
    textOf (List.replicate n ⟨.gap, [' ']⟩) = List.replicate n ' ' := by
  induction n with
  | zero => rfl
  | succ n ih => rw [List.replicate_succ, textOf_cons, ih]; rfl

/-- What is left of a piece has blanks for all of its characters or for none. -/
lemma Piece.textOf_blanked (p : Piece) :
    textOf p.blanked = p.text.map fun ch => if p.isVoid then ' ' else ch := by
  rw [blanked]
  cases p.isVoid with
  | true => simp [textOf_blanks]
  | false => simp

/-- A text is blanked out piece by piece. -/
lemma Splits.blankWhere_eq {text : List Char} {ps : List Piece} (h : Splits text ps) (l : Location) :
    blankWhere (List.zipWith (· || ·) ((regions .code text).map Region.isComment)
        (reportMarks (Scan.ofItems (place l ps)).errors l text)) text =
      textOf (ps.flatMap Piece.blanked) := by
  induction h generalizing l with
  | nil => rfl
  | @cons p rest ps hlead hs ih =>
    have hfirst : blankWhere (List.replicate p.text.length p.isVoid) p.text = textOf p.blanked := by
      rw [blankWhere, zipWith_replicate_length, p.textOf_blanked]
    rw [hlead.regions_append, hlead.reportMarks_append, List.map_append, List.map_replicate,
      List.zipWith_append (by simp), List.zipWith_replicate', blankWhere,
      List.zipWith_append (by simp), List.flatMap_cons, textOf_append, ← ih, ← hfirst]
    rfl

/-- What is left of a text is what is left of its pieces. -/
theorem Splits.blankOut_eq {source : String} {ps : List Piece} (h : Splits source.toList ps) :
    (blankOut source).toList = textOf (ps.flatMap Piece.blanked) := by
  rw [blankOut, String.toList_ofList, scan_of_splits h, h.blankWhere_eq]

/-- What is left of a text looks like the text but for blanks. -/
lemma Splits.blankedFront {text : List Char} {ps : List Piece} (h : Splits text ps) :
    BlankedFront text (textOf (ps.flatMap Piece.blanked)) := by
  induction h with
  | nil => exact ⟨.inl rfl, fun _ _ => .inl rfl⟩
  | @cons p rest ps hlead hs ih =>
    rw [List.flatMap_cons, textOf_append]
    cases hvoid : p.isVoid with
    | true =>
      obtain ⟨ch, others, htext⟩ := List.exists_cons_of_ne_nil hlead.text_ne_nil
      have hblank : (textOf p.blanked ++ textOf (ps.flatMap Piece.blanked)).head? = some ' ' := by
        simp [p.textOf_blanked, hvoid, htext]
      refine ⟨.inr ⟨' ', hblank, by decide⟩, fun _ hpoint => ?_⟩
      rw [hblank] at hpoint
      exact absurd hpoint (by decide)
    | false =>
      have hsame : textOf p.blanked = p.text := by simp [p.textOf_blanked, hvoid]
      rw [hsame]
      exact ih.append_left p.text

/-- Blanks in front of a text are pieces by themselves. -/
lemma Splits.blanks_append {text : List Char} {ps : List Piece} (h : Splits text ps) (n : Nat) :
    Splits (List.replicate n ' ' ++ text) (List.replicate n ⟨.gap, [' ']⟩ ++ ps) := by
  induction n with
  | zero => exact h
  | succ n ih => exact .cons (.blank (by decide)) ih

/-- A piece that is not blanked out remains at the front of what is left. -/
lemma Leads.of_blankedFront {p : Piece} {rest rest' : List Char} (h : Leads p rest)
    (hkept : p.isVoid = false) (hfront : BlankedFront rest rest') (hend : rest = [] → rest' = []) :
    Leads p rest' := by
  cases h with
  | blank h => exact .blank h
  | comment h =>
    obtain ⟨body, rfl, -⟩ := h
    cases hkept
  | lexeme h hstop => exact .lexeme h (hstop.of_blankedFront hfront)
  | stray => cases hkept.symm.trans (Bool.or_true _)
  | openString h => exact hend rfl ▸ .openString h

/-- What is left of the pieces of a text are the pieces of what is left.

**Proof sketch.** Induction on the pieces. Of a piece that is blanked out blanks are left. Any other
piece remains, since blanks continue no lexeme, and since behind an open string nothing was and
nothing is. -/
theorem Splits.blanked {text : List Char} {ps : List Piece} (h : Splits text ps) :
    Splits (textOf (ps.flatMap Piece.blanked)) (ps.flatMap Piece.blanked) := by
  induction h with
  | nil => exact .nil
  | @cons p rest ps hlead hs ih =>
    rw [List.flatMap_cons, textOf_append, Piece.blanked]
    split
    · rw [textOf_blanks]
      exact ih.blanks_append _
    · next hkept =>
      rw [textOf_cons, textOf_nil, List.append_nil]
      refine .cons (hlead.of_blankedFront (Bool.eq_false_iff.2 hkept) hs.blankedFront ?_) ih
      rintro rfl
      rw [hs.eq_nil]
      rfl

/-! ## What is left of the items -/

/-- A piece of the region of comments is a gap. -/
lemma Leads.role_of_isComment {p : Piece} {rest : List Char} (h : Leads p rest)
    (hcomment : p.region.isComment = true) : p.role = .gap := by
  obtain ⟨ch, others, htext⟩ := List.exists_cons_of_ne_nil h.text_ne_nil
  have hgap := h.isGap_eq ch (by simp [htext])
  cases hregion : p.region with
  | comment => exact decide_eq_true_iff.1 (by rw [← hgap, hregion]; rfl)
  | code | string => rw [hregion] at hcomment; cases hcomment

/-- A piece that is blanked out is part of one line.

**Proof sketch.** It is a comment or a character of no use. A blank by itself has no second
character, so it is no comment. -/
lemma Leads.newline_not_mem {p : Piece} {rest : List Char} (h : Leads p rest)
    (hvoid : p.isVoid = true) : '\n' ∉ p.text := by
  rcases Bool.or_eq_true_iff.1 hvoid with hcomment | hstray
  · have hrole := h.role_of_isComment hcomment
    cases h with
    | comment h =>
      obtain ⟨body, rfl, hbody⟩ := h
      simpa using hbody
    | @blank ch _ h =>
      have hplain : ∀ c ∈ [ch], c ≠ '\x22' ∧ c ≠ '/' :=
        List.forall_mem_singleton.2 (ne_quote_and_ne_slash_of_isBlank h)
      rw [Piece.region_of_code hplain] at hcomment
      cases hcomment
    | lexeme | stray | openString => cases hrole
  · cases h with
    | stray h =>
      have hblank := (isPlain_of_classOf (.inr (.inr h))).1
      rw [List.mem_singleton]
      rintro rfl
      exact absurd hblank (by decide)
    | blank | comment | lexeme | openString => cases hstray

/-- Whether an item is found in what is left of its text: it is no character of no use. -/
def Item.isKept : Item → Bool
  | token _ => true
  | error e => e.wantsMore

/-- The item of a piece is found in what is left of it just if the piece is not blanked out. -/
lemma Leads.filter_isKept {p : Piece} {rest : List Char} (h : Leads p rest) (l : Location) :
    (p.item? l).toList.filter Item.isKept = if p.isVoid then [] else (p.item? l).toList := by
  cases hrole : p.role with
  | gap => simp [Piece.item?, hrole]
  | stray ch => simp [Piece.item?, Piece.isVoid, Piece.isStray, hrole, Item.isKept,
      LexError.wantsMore]
  | lexeme | openString =>
    have hkept : p.isVoid = false := by
      refine Bool.eq_false_iff.2 fun hvoid => ?_
      have hgap := h.role_of_isComment (by simpa [Piece.isVoid, Piece.isStray, hrole] using hvoid)
      rw [hrole] at hgap
      cases hgap
    simp [Piece.item?, hrole, hkept, Item.isKept, LexError.wantsMore]

/-- The items of what is left of pieces are those of the pieces, but for characters of no use.

**Proof sketch.** Induction on the pieces. The blanks that are left of a piece are no items, and they
lead to the same place as the piece. -/
theorem place_blanked {text : List Char} {ps : List Piece} (h : Splits text ps) (l : Location) :
    place l (ps.flatMap Piece.blanked) = (place l ps).filter Item.isKept := by
  induction h generalizing l with
  | nil => rfl
  | @cons p rest ps hlead hs ih =>
    rw [List.flatMap_cons, place_append, place_cons, List.filter_append, ← ih,
      hlead.filter_isKept, Piece.blanked]
    split
    · next hvoid =>
      have hplace : l.after (List.replicate p.text.length ' ') = l.after p.text := by
        rw [Location.after_of_not_mem (by simp), Location.after_of_not_mem (hlead.newline_not_mem hvoid),
          List.length_replicate]
      rw [textOf_blanks, hplace, itemsOf_of_gaps fun q hq => by rw [List.eq_of_mem_replicate hq]]
    · simp [itemsOf]

/-- Without the characters of no use the tokens of items are the same, and so are the open strings
among the errors. -/
lemma Scan.ofItems_filter_isKept (found : List Item) :
    ofItems (found.filter Item.isKept) =
      ⟨(ofItems found).tokens, (ofItems found).errors.filter LexError.wantsMore⟩ := by
  have htoken : (fun item : Item => if item.isKept then item.token? else none) = Item.token? := by
    funext item
    cases item with
    | token t => rfl
    | error e => exact ite_self _
  have herror : (fun item : Item => if item.isKept then item.error? else none) =
      fun item => item.error?.filter LexError.wantsMore := by
    funext item
    cases item with
    | token t => rfl
    | error e => rfl
  rw [ofItems, ofItems, List.filterMap_filter, List.filterMap_filter, List.filter_filterMap, htoken,
    herror]

/-- **Errors and comments act as blanks.** Write a blank over each character of a comment and over
each character that is reported as an error. The scan of what is left has the same tokens, with
their kinds, values, lexemes and spans. Of the errors an open string remains, with its span, and no
other one does.

**Proof sketch.** What is left of the pieces of the text are the pieces of what is left; and their
items are those of the text without the characters of no use. -/
theorem scan_blankOut (source : String) :
    (scan (blankOut source)).tokens = (scan source).tokens ∧
      (scan (blankOut source)).errors = (scan source).errors.filter LexError.wantsMore := by
  obtain ⟨ps, hps⟩ := exists_splits source.toList
  have hblanked : Splits (blankOut source).toList (ps.flatMap Piece.blanked) :=
    hps.blankOut_eq ▸ hps.blanked
  rw [scan_of_splits hps, scan_of_splits hblanked, place_blanked hps, Scan.ofItems_filter_isKept]
  exact ⟨rfl, rfl⟩

end LoxLex
