import LoxLex.Proofs.Pieces
import LoxLex.ScanLog

set_option relaxedAutoImplicit false
set_option autoImplicit false

/-!
# The items of a text, piece by piece

A text is cut into pieces by taking the piece at its front again and again. The pieces do not know
where they stand; walking over them from a location gives the items, each with its span. What a
scanner yields is what such a walk gives.

## Main definitions

* `LoxLex.Splits` — the pieces of a text.
* `LoxLex.Piece.item?` — the item that a piece is, if it is one.
* `LoxLex.itemsOf`, `LoxLex.place` — the items of pieces, without and with the end of the text.

## Main results

* `LoxLex.exists_splits` — every text has pieces.
* `LoxLex.Cursor.nextItem_of_splits` — what one call of a scanner finds.
* `LoxLex.Scanner.take_of_splits`, `LoxLex.items_of_splits` — what a scanner yields.
* `LoxLex.scan_of_splits` — what the scan of a text consists of.
-/

namespace LoxLex

/-! ## Cutting a text into pieces -/

/-- A text and its pieces in order. -/
inductive Splits : List Char → List Piece → Prop where
  | nil : Splits [] []
  | cons {p : Piece} {rest : List Char} {ps : List Piece} (h : Leads p rest) (hs : Splits rest ps) :
    Splits (p.text ++ rest) (p :: ps)

/-- The text that pieces make up. -/
def textOf (ps : List Piece) : List Char := ps.flatMap Piece.text

@[simp] lemma textOf_nil : textOf [] = [] := rfl

@[simp] lemma textOf_cons (p : Piece) (ps : List Piece) : textOf (p :: ps) = p.text ++ textOf ps :=
  rfl

@[simp] lemma textOf_append (ps qs : List Piece) : textOf (ps ++ qs) = textOf ps ++ textOf qs :=
  List.flatMap_append

/-- The pieces of a text make up the text. -/
lemma Splits.text_eq {text : List Char} {ps : List Piece} (h : Splits text ps) :
    text = textOf ps := by
  induction h with
  | nil => rfl
  | cons _ _ ih => rw [textOf_cons, ← ih]

/-- The pieces behind some of the pieces of a text are those of what is left. -/
lemma Splits.of_append {text : List Char} {ps qs : List Piece} (h : Splits text (ps ++ qs)) :
    Splits (textOf qs) qs := by
  induction ps generalizing text with
  | nil => exact h.text_eq ▸ h
  | cons p ps ih =>
    cases h with
    | cons _ hs => exact ih hs

/-- Each piece of a text is the front of what is left from it on. -/
lemma Splits.leads {text : List Char} {p : Piece} {ps qs : List Piece}
    (h : Splits text (ps ++ p :: qs)) : Leads p (textOf qs) := by
  have hs := h.of_append
  generalize textOf (p :: qs) = left at hs
  cases hs with
  | cons hlead hs => exact hs.text_eq ▸ hlead

/-- The text without characters has no pieces. -/
lemma splits_empty : Splits "".toList [] := .nil

/-- Every text has pieces.

**Proof sketch.** Take the piece at the front; it is not empty, so what is left is shorter. -/
lemma exists_splits (text : List Char) : ∃ ps, Splits text ps := by
  induction hn : text.length using Nat.strong_induction_on generalizing text with
  | _ n ih =>
    by_cases hne : text = []
    · exact ⟨[], hne ▸ .nil⟩
    · obtain ⟨p, rest, rfl, hlead⟩ := exists_leads hne
      have hpos := List.length_pos_iff.2 hlead.text_ne_nil
      obtain ⟨ps, hps⟩ := ih rest.length (by rw [List.length_append] at hn; omega) rest rfl
      exact ⟨p :: ps, .cons hlead hps⟩

/-- There are no more pieces than characters. -/
lemma Splits.length_le {text : List Char} {ps : List Piece} (h : Splits text ps) :
    ps.length ≤ text.length := by
  induction h with
  | nil => simp
  | cons hlead _ ih =>
    have hpos := List.length_pos_iff.2 hlead.text_ne_nil
    simp only [List.length_cons, List.length_append]
    omega

/-- The empty text has no pieces. -/
lemma Splits.eq_nil {ps : List Piece} (h : Splits [] ps) : ps = [] :=
  List.eq_nil_of_length_eq_zero (Nat.le_zero.1 h.length_le)

/-! ## From pieces to items -/

/-- The item that a piece is, if it stands at `l`. Blanks and comments are none. -/
def Piece.item? (l : Location) (p : Piece) : Option Item :=
  let span : Span := ⟨l, l.after p.text⟩
  match p.role with
  | .gap => none
  | .lexeme kind => some (.token ⟨kind, String.ofList p.text, span⟩)
  | .stray ch => some (.error (.unexpectedCharacter ch span))
  | .openString => some (.error (.unterminatedString span))

/-- The item for the end of a text. -/
def endItem (l : Location) : Item := .token ⟨.endOfInput, "", Span.empty l⟩

/-- The items of pieces that stand behind each other from `l` on. -/
def itemsOf : Location → List Piece → List Item
  | _, [] => []
  | l, p :: ps => (p.item? l).toList ++ itemsOf (l.after p.text) ps

/-- The items of pieces and the one for the end behind them. -/
def place (l : Location) (ps : List Piece) : List Item :=
  itemsOf l ps ++ [endItem (l.after (textOf ps))]

@[simp] lemma place_nil (l : Location) : place l [] = [endItem l] := rfl

@[simp] lemma place_cons (l : Location) (p : Piece) (ps : List Piece) :
    place l (p :: ps) = (p.item? l).toList ++ place (l.after p.text) ps := by
  simp [place, itemsOf]

/-- A blank or a comment only leads to the place behind it. -/
lemma place_gap (l : Location) (text : List Char) (ps : List Piece) :
    place l (⟨.gap, text⟩ :: ps) = place (l.after text) ps :=
  place_cons l ⟨.gap, text⟩ ps

/-- Items are found in two parts of the pieces one after the other. -/
lemma itemsOf_append (l : Location) (ps qs : List Piece) :
    itemsOf l (ps ++ qs) = itemsOf l ps ++ itemsOf (l.after (textOf ps)) qs := by
  induction ps generalizing l with
  | nil => rfl
  | cons p ps ih => simp [itemsOf, ih]

/-- The first pieces may be walked over without regard to the end. -/
lemma place_append (l : Location) (ps qs : List Piece) :
    place l (ps ++ qs) = itemsOf l ps ++ place (l.after (textOf ps)) qs := by
  simp [place, itemsOf_append]

/-- The errors of a text are those of its first piece and those of the others. -/
lemma errors_place_cons (l : Location) (p : Piece) (ps : List Piece) :
    (Scan.ofItems (place l (p :: ps))).errors =
      ((p.item? l).bind Item.error?).toList ++ (Scan.ofItems (place (l.after p.text) ps)).errors := by
  rw [place_cons, Scan.ofItems, Scan.ofItems, List.filterMap_append]
  cases p.item? l with
  | none => rfl
  | some item => cases item <;> rfl

/-- Blanks and comments give no items. -/
lemma itemsOf_of_gaps {l : Location} {ps : List Piece} (h : ∀ p ∈ ps, p.role = .gap) :
    itemsOf l ps = [] := by
  induction ps generalizing l with
  | nil => rfl
  | cons p ps ih =>
    obtain ⟨hp, hps⟩ := List.forall_mem_cons.1 h
    simp [itemsOf, Piece.item?, hp, ih hps]

/-- The item at a place in the list belongs to one of the pieces. It stands behind the pieces before
it, and so do as many items as its place in the list tells. -/
lemma exists_piece_of_getElem? {l : Location} {ps : List Piece} {n : Nat} {item : Item}
    (h : (itemsOf l ps)[n]? = some item) :
    ∃ before p behind, ps = before ++ p :: behind ∧ (itemsOf l before).length = n ∧
      p.item? (l.after (textOf before)) = some item := by
  induction ps generalizing l n with
  | nil => cases h
  | cons p ps ih =>
    rw [itemsOf] at h
    cases hp : p.item? l with
    | none =>
      rw [hp] at h
      obtain ⟨before, q, behind, rfl, hn, hq⟩ := ih h
      exact ⟨p :: before, q, behind, rfl, by simpa [itemsOf, hp] using hn, by simpa using hq⟩
    | some first =>
      rw [hp] at h
      cases n with
      | zero =>
        obtain rfl : first = item := by simpa using h
        exact ⟨[], p, ps, rfl, rfl, hp⟩
      | succ n =>
        obtain ⟨before, q, behind, rfl, hn, hq⟩ := ih (by simpa using h)
        exact ⟨p :: before, q, behind, rfl, by simp [itemsOf, hp, hn], by simpa using hq⟩

/-- The item of a piece stands behind the items of the pieces before it. -/
lemma getElem?_place_of_item {l : Location} {before behind : List Piece} {p : Piece} {item : Item}
    (h : p.item? (l.after (textOf before)) = some item) :
    (place l (before ++ p :: behind))[(itemsOf l before).length]? = some item := by
  rw [place_append, List.getElem?_append_right (Nat.le_refl _), Nat.sub_self, place_cons, h]
  rfl

/-- An item belongs to one of the pieces, and stands behind those before it. -/
lemma exists_piece_of_mem {l : Location} {ps : List Piece} {item : Item}
    (h : item ∈ itemsOf l ps) :
    ∃ before p behind, ps = before ++ p :: behind ∧
      p.item? (l.after (textOf before)) = some item := by
  obtain ⟨n, hn⟩ := List.mem_iff_getElem?.1 h
  obtain ⟨before, p, behind, hps, -, hp⟩ := exists_piece_of_getElem? hn
  exact ⟨before, p, behind, hps, hp⟩

/-- There is at most one item more than there are pieces. -/
lemma place_length_le (l : Location) (ps : List Piece) : (place l ps).length ≤ ps.length + 1 := by
  induction ps generalizing l with
  | nil => simp
  | cons p ps ih =>
    have hone : (p.item? l).toList.length ≤ 1 := by cases p.item? l <;> simp
    have := ih (l.after p.text)
    rw [place_cons, List.length_append, List.length_cons]
    omega

/-- No piece is the end of the text. -/
lemma Leads.item_isEnd {p : Piece} {rest : List Char} {l : Location} {item : Item}
    (h : Leads p rest) (hitem : p.item? l = some item) : item.isEnd = false := by
  cases h with
  | blank | comment => cases hitem
  | stray | openString => cases hitem; rfl
  | lexeme hlexeme => cases hitem; cases hlexeme <;> rfl

/-- Nor is any of the items of a text's pieces. -/
lemma Splits.isEnd_eq_false {text : List Char} {ps : List Piece} (h : Splits text ps) {l : Location}
    {item : Item} (hitem : item ∈ itemsOf l ps) : item.isEnd = false := by
  obtain ⟨before, p, behind, rfl, hp⟩ := exists_piece_of_mem hitem
  exact h.leads.item_isEnd hp

/-! ## What a scanner yields -/

namespace Cursor

variable {c : Cursor}

/-- At the end of the text the item is the end. -/
lemma nextItem_of_nil (h : c.rest = []) : c.nextItem = (endItem c.location, c) := by
  have hstep : c.step = .finish := by simp [step, next?_of_nil h]
  have htext : c.textSince c.offset = [] := textSince_past c [] c.rest
  rw [nextItem]
  split <;> simp_all [tokenTo, endItem, Span.empty]

/-- What a step passes over is passed over. -/
lemma nextItem_of_skip {d : Cursor} (h : c.step = .skip d) : c.nextItem = d.nextItem := by
  conv_lhs => rw [nextItem]
  split <;> simp_all

/-- A blank or a comment is passed over. -/
lemma nextItem_of_gap {p : Piece} {rest : List Char} (h : c.rest = p.text ++ rest)
    (hlead : Leads p rest) (hp : p.role = .gap) : c.nextItem = (c.past p.text rest).nextItem :=
  nextItem_of_skip (by rw [step_of_leads h hlead, Piece.step, hp])

/-- Every other piece is an item. -/
lemma nextItem_of_item {p : Piece} {rest : List Char} {item : Item} (h : c.rest = p.text ++ rest)
    (hlead : Leads p rest) (hitem : p.item? c.location = some item) :
    c.nextItem = (item, c.past p.text rest) := by
  have hstep := step_of_leads h hlead
  have htext := textSince_past c p.text rest
  rw [nextItem]
  cases hp : p.role <;> simp only [Piece.item?, Piece.step, hp] at hitem hstep
  · cases hitem
  all_goals
    cases hitem
    split <;> simp_all [tokenTo]

/-- What the next item is, and where the cursor stands behind it: either only blanks and comments
are left, and the item is the end; or the item is the first piece that is none of these.

**Proof sketch.** Induction on the pieces. A blank or a comment is passed over, and the induction
hypothesis speaks of the cursor behind it. -/
theorem nextItem_of_splits {ps : List Piece} (h : Splits c.rest ps) :
    ((∀ p ∈ ps, p.role = .gap) ∧
        c.nextItem = (endItem (c.location.after c.rest), c.past c.rest [])) ∨
      ∃ gaps p qs item, ps = gaps ++ p :: qs ∧ (∀ g ∈ gaps, g.role = .gap) ∧
        p.item? (c.location.after (textOf gaps)) = some item ∧ item.isEnd = false ∧
        Splits (textOf qs) qs ∧
        c.nextItem = (item, c.past (textOf gaps ++ p.text) (textOf qs)) := by
  generalize htext : c.rest = text at h
  induction h generalizing c with
  | nil =>
    refine .inl ⟨by simp, ?_⟩
    have stays : c.past [] [] = c := by simpa only [htext] using c.past_nil
    rw [nextItem_of_nil htext, Location.after_nil, stays]
  | @cons p rest ps hlead hs ih =>
    cases hitem : p.item? c.location with
    | some item =>
      refine .inr ⟨[], p, ps, item, rfl, by simp, hitem, hlead.item_isEnd hitem, ?_, ?_⟩
      · exact hs.text_eq ▸ hs
      · rw [nextItem_of_item htext hlead hitem, textOf_nil, List.nil_append, ← hs.text_eq]
    | none =>
      have hp : p.role = .gap := by
        cases hrole : p.role <;> simp_all [Piece.item?]
      rw [nextItem_of_gap htext hlead hp]
      rcases ih (past_rest c p.text rest) with ⟨hall, hnext⟩ | ⟨gaps, q, qs, item, hq⟩
      · refine .inl ⟨by simpa [hp] using hall, ?_⟩
        rw [hnext, past_past, past_location, Location.after_append]
      · obtain ⟨rfl, hgaps, hitem, hend, hqs, hnext⟩ := hq
        refine .inr ⟨p :: gaps, q, qs, item, rfl, by simpa [hp] using hgaps, ?_, hend, hqs, ?_⟩
        · simpa using hitem
        · rw [hnext, past_past, textOf_cons, List.append_assoc]

end Cursor

/-- A scanner yields the items of the pieces that are ahead of it, one after the other.

**Proof sketch.** Induction on the number of calls. Each call yields the first item of the walk,
and leaves the pieces behind it. -/
theorem Scanner.take_of_splits (n : Nat) {s : Scanner} {ps : List Piece} (h : s.finished = false)
    (hs : Splits s.cursor.rest ps) : (s.take n).1 = (place s.cursor.location ps).take n := by
  induction n generalizing s ps with
  | zero => rfl
  | succ n ih =>
    have ended : ∀ cursor, (Scanner.take n ⟨cursor, true⟩).1 = [] := by
      intro cursor
      cases n <;> rfl
    rcases Cursor.nextItem_of_splits hs with ⟨hall, hnext⟩ | ⟨gaps, p, qs, item, hq⟩
    · simp only [take, next, h, hnext]
      rw [place, itemsOf_of_gaps hall, ← hs.text_eq]
      simp only [endItem, Item.isEnd, Token.isEnd, List.nil_append, List.take_succ_cons,
        List.take_nil]
      exact congrArg (_ :: ·) (ended _)
    · obtain ⟨rfl, hgaps, hitem, hend, hqs, hnext⟩ := hq
      have rest := ih (s := ⟨s.cursor.past (textOf gaps ++ p.text) (textOf qs), item.isEnd⟩)
        hend hqs
      simp only [take, next, h, hnext]
      rw [place_append, itemsOf_of_gaps hgaps, place_cons, hitem]
      simpa using rest

/-- A scanner at the start of a text yields the items of its pieces. -/
theorem take_of_splits {source : String} {ps : List Piece} (h : Splits source.toList ps) (n : Nat) :
    ((Scanner.ofString source).take n).1 = (place Location.start ps).take n :=
  Scanner.take_of_splits n rfl h

/-- The items of a text are those of its pieces. -/
theorem items_of_splits {source : String} {ps : List Piece} (h : Splits source.toList ps) :
    items source = place Location.start ps := by
  rw [items, Scanner.drain, take_of_splits h, List.take_of_length_le]
  exact (place_length_le Location.start ps).trans (Nat.succ_le_succ h.length_le)

/-- The scan of a text sorts the items of its pieces. -/
lemma scan_of_splits {source : String} {ps : List Piece} (h : Splits source.toList ps) :
    scan source = .ofItems (place Location.start ps) := by
  rw [scan, items_of_splits h]

end LoxLex
