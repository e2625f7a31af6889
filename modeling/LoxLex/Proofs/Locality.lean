import LoxLex.Proofs.Concatenation
import LoxLex.Proofs.SourceSpans

set_option relaxedAutoImplicit false
set_option autoImplicit false

/-!
# Items do not depend on what comes later

Whatever a scanner yields is settled as soon as two more characters are known: the text may be
changed behind them, and the item is still found, at the same place among the items, and with all
items before it the same.

## Main results

* `LoxLex.items_local` — an item stays if the text is changed two characters behind it.
-/

namespace LoxLex

/-- An item that stops before the end of its source is one of the pieces, and stops behind it. -/
lemma exists_piece_of_stop {source : List Char} {ps : List Piece} (h : Splits source ps) {n j : Nat}
    {item : Item} (hitem : (place Location.start ps)[n]? = some item)
    (hstop : item.span.stop = locationAt source j) (hj : j < source.length) :
    ∃ before p behind, ps = before ++ p :: behind ∧ (itemsOf Location.start before).length = n ∧
      p.item? (Location.start.after (textOf before)) = some item ∧
      (textOf (before ++ [p])).length = j := by
  rw [place, List.getElem?_append] at hitem
  split at hitem
  · obtain ⟨before, p, behind, rfl, hn, hp⟩ := exists_piece_of_getElem? hitem
    refine ⟨before, p, behind, rfl, hn, hp, ?_⟩
    have hsource : source = textOf (before ++ [p]) ++ textOf behind := by
      rw [h.text_eq, ← textOf_append, List.append_assoc, List.singleton_append]
    have hbehind : item.span.stop = Location.start.after (textOf (before ++ [p])) := by
      rw [Piece.span_of_item? hp, textOf_append, Location.after_append, textOf_cons, textOf_nil,
        List.append_nil]
    exact ((locationAt_eq_iff hsource (Nat.le_of_lt hj)).1 (hstop.symm.trans hbehind)).symm
  -- The end of the source stops behind all of it.
  · obtain rfl : endItem (Location.start.after (textOf ps)) = item :=
      List.mem_singleton.1 (List.mem_of_getElem? hitem) |>.symm
    have hend : locationAt source j = Location.start.after source := by
      rw [← hstop, ← h.text_eq]
      rfl
    have := (locationAt_eq_iff (List.append_nil source).symm (Nat.le_of_lt hj)).1 hend
    omega

/-- **Items do not depend on what comes later.** An item that a scanner yields for a text, and
behind which at least two more characters of the text stand, is yielded at the same place and is
the same whatever comes behind these characters.

**Proof sketch.** The item is a piece of the text. This piece and those before it see two
characters behind them at most, so they remain when the text is changed further behind. -/
theorem items_local (text x y : String) {n j : Nat} {item : Item}
    (hitem : (items (text ++ x))[n]? = some item)
    (hstop : item.span.stop = locationAt text.toList j) (hj : j + 2 ≤ text.length) :
    (items (text ++ y))[n]? = some item := by
  rw [← String.length_toList] at hj
  obtain ⟨ps, hps⟩ := exists_splits (text ++ x).toList
  rw [items_of_splits hps] at hitem
  rw [String.toList_append] at hps
  have hplace : locationAt text.toList j = locationAt (text.toList ++ x.toList) j := by
    rw [locationAt, locationAt, List.take_append_of_le_length (by omega)]
  obtain ⟨before, p, behind, rfl, hn, hp, hlength⟩ :=
    exists_piece_of_stop hps hitem (hstop.trans hplace) (by rw [List.length_append]; omega)
  obtain ⟨rest, hrest⟩ : textOf (before ++ [p]) <+: text.toList := by
    refine List.prefix_of_prefix_length_le ?_ (List.prefix_append _ x.toList) (by omega)
    refine ⟨textOf behind, ?_⟩
    rw [hps.text_eq, ← textOf_append, List.append_assoc, List.singleton_append]
  obtain ⟨a, b, w, rfl⟩ : ∃ a b w, rest = a :: b :: w := by
    have htwo := congrArg List.length hrest
    rw [List.length_append] at htwo
    rcases rest with _ | ⟨a, _ | ⟨b, w⟩⟩
    · simp only [List.length_nil] at htwo
      omega
    · simp only [List.length_singleton] at htwo
      omega
    · exact ⟨a, b, w, rfl⟩
  obtain ⟨others, hothers⟩ := exists_splits (a :: b :: (w ++ y.toList))
  have hold : Splits (textOf (before ++ [p]) ++ a :: b :: (w ++ x.toList))
      (before ++ [p] ++ behind) := by
    simpa [← hrest] using hps
  have hnew : Splits (text ++ y).toList (before ++ p :: others) := by
    simpa [← hrest] using hold.change_behind (.of_two a b _ (w ++ y.toList)) hothers
  rw [items_of_splits hnew, ← hn]
  exact getElem?_place_of_item hp

/-- A number after an error, with a point and a letter behind it: these two characters are enough
for the number to stay. -/
theorem items_local_number :
    (items ("@ 1.a" ++ "b"))[1]? = some (.token ⟨.literal (.number ⟨false, 0x3FF0000000000000,
        by decide⟩), "1", ⟨⟨1, 3⟩, ⟨1, 4⟩⟩⟩) ∧
      (items ("@ 1.a" ++ "\""))[1]? = some (.token ⟨.literal (.number ⟨false, 0x3FF0000000000000,
        by decide⟩), "1", ⟨⟨1, 3⟩, ⟨1, 4⟩⟩⟩) := by
  have hitem : (items ("@ 1.a" ++ "b"))[1]? = some (.token ⟨.literal (.number ⟨false,
      0x3FF0000000000000, by decide⟩), "1", ⟨⟨1, 3⟩, ⟨1, 4⟩⟩⟩) := by decide +kernel
  exact ⟨hitem, items_local "@ 1.a" "b" "\"" (j := 3) hitem (by decide) (by decide)⟩

/-- One character would not be enough: a digit behind the point makes the number longer. -/
example : (items ("1." ++ "a"))[0]? ≠ (items ("1." ++ "5"))[0]? := by decide +kernel

end LoxLex
