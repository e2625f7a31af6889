import LoxLex.Proofs.Placement

set_option relaxedAutoImplicit false
set_option autoImplicit false

/-!
# Scanners come to an end

A call of a scanner passes blanks and comments until something else comes, and each of its loops
uses up the text that is left. So the call returns, and it has passed at least one character or has
found that nothing but blanks and comments is left. Hence there are at most as many items as
characters, and one more for the end of the text; whoever keeps on calling is told that there is
nothing more.

## Main definitions

* `LoxLex.IsTrivia` — blanks and comments, and nothing else.
* `LoxLex.Cursor.Skips` — several blanks and comments are passed one after the other.
* `LoxLex.Scanner.Yields` — what a call of a scanner leads to.
* `LoxLex.Scanner.Exhausts` — the items that a scanner yields, and nothing behind them.

## Main results

* `LoxLex.Cursor.exists_skips` — blanks and comments come to an end.
* `LoxLex.Scanner.exists_yields` — every call before the end returns an item.
* `LoxLex.Scanner.collectLogged_of_finished_take` — more calls than are needed change nothing.
* `LoxLex.exhausts_items` — a scanner for a text exhausts its items.
* `LoxLex.tokens_scan` — the tokens of a text end with the only one for the end.
* `LoxLex.scanner_comes_to_end` — the items of a text, and all calls behind the last of them.
-/

namespace LoxLex

/-! ## Blanks and comments come to an end -/

/-- Blanks and comments one behind the other. A comment goes up to the end of its line. -/
inductive IsTrivia : List Char → Prop where
  | nil : IsTrivia []
  | blank {ch : Char} {text : List Char} (h : isBlank ch = true) (htext : IsTrivia text) :
    IsTrivia (ch :: text)
  | comment {line text : List Char} (h : IsComment line)
    (hend : ∀ ch, text.head? = some ch → ch = '\n') (htext : IsTrivia text) :
    IsTrivia (line ++ text)

/-- Such a text has no other pieces. -/
lemma isTrivia_iff (text : List Char) :
    IsTrivia text ↔ ∃ ps, Splits text ps ∧ ∀ p ∈ ps, p.role = .gap := by
  constructor
  · intro h
    induction h with
    | nil => exact ⟨[], .nil, by simp⟩
    | @blank ch text hch htext ih =>
      obtain ⟨ps, hps, hall⟩ := ih
      exact ⟨⟨.gap, [ch]⟩ :: ps, .cons (.blank hch) hps, by simpa using hall⟩
    | @comment line text hline hend htext ih =>
      obtain ⟨ps, hps, hall⟩ := ih
      exact ⟨⟨.gap, line⟩ :: ps, .cons (.comment hline hend) hps, by simpa using hall⟩
  · rintro ⟨ps, hps, hall⟩
    induction hps with
    | nil => exact .nil
    | @cons p rest ps hlead hs ih =>
      obtain ⟨hp, hgaps⟩ := List.forall_mem_cons.1 hall
      cases hlead with
      | blank hch => exact .blank hch (ih hgaps)
      | comment hline hend => exact .comment hline hend (ih hgaps)
      | lexeme | stray | openString => cases hp

/-- A text that is not empty has bytes. -/
lemma byteLength_pos {text : List Char} (h : text ≠ []) : 0 < byteLength text := by
  obtain ⟨ch, text, rfl⟩ := List.exists_cons_of_ne_nil h
  have hpos := ch.utf8Size_pos
  rw [byteLength]
  omega

namespace Cursor

/-- A run of moves goes round once for each character that it passes. -/
lemma passWhile_count (p : Char → Bool) (c : Cursor) :
    (c.passWhile p).1 + (c.passWhile p).2.rest.length = c.rest.length := by
  rw [passWhile_eq, past_rest, ← List.length_append, List.takeWhile_append_dropWhile]

/-- `c.Skips k d` says that from `c` on `k` blanks and comments are passed one after the other, and
that they lead to `d`. -/
inductive Skips : Cursor → Nat → Cursor → Prop where
  | stay (c : Cursor) : Skips c 0 c
  | pass {c d e : Cursor} {k : Nat} (h : c.step = .skip d) (hs : Skips d k e) : Skips c (k + 1) e

/-- What is found behind blanks and comments is what is found from the first of them on. -/
lemma Skips.nextItem_eq {c d : Cursor} {k : Nat} (h : c.Skips k d) : c.nextItem = d.nextItem := by
  induction h with
  | stay => rfl
  | pass h _ ih => rw [nextItem_of_skip h, ih]

/-- Blanks and comments come to an end, after at most as many of them as characters are passed.

**Proof sketch.** Induction on the length of what is left, which each round of the loop
shortens. -/
lemma exists_skips (c : Cursor) :
    ∃ k d, c.Skips k d ∧ (∀ e, d.step ≠ .skip e) ∧ k + d.rest.length ≤ c.rest.length := by
  induction hn : c.rest.length using Nat.strong_induction_on generalizing c with
  | _ n ih =>
    by_cases hskip : ∃ d, c.step = .skip d
    · obtain ⟨d, h⟩ := hskip
      have hless : d.rest.length < c.rest.length := rest_length_lt_of_step (by rw [h]; rfl)
      obtain ⟨k, e, hskips, hstop, hle⟩ := ih d.rest.length (by omega) d rfl
      exact ⟨k + 1, e, .pass h hskips, hstop, by omega⟩
    · exact ⟨0, c, .stay c, fun e he => hskip ⟨e, he⟩, by omega⟩

/-- What the next item is: the end of the text if nothing but blanks and comments is left, and else
something that uses up characters.

**Proof sketch.** What is left has pieces. If all of them are blanks and comments, the item is the
end. If one is not, then no other way to cut what is left consists of blanks and comments alone, for
the item would be the end as well. -/
theorem nextItem_cases (c : Cursor) :
    (IsTrivia c.rest ∧ c.nextItem = (endItem (c.location.after c.rest), c.past c.rest [])) ∨
      ¬ IsTrivia c.rest ∧ ∃ passed behind item, c.rest = passed ++ behind ∧ passed ≠ [] ∧
        item.isEnd = false ∧ c.nextItem = (item, c.past passed behind) := by
  obtain ⟨ps, hps⟩ := exists_splits c.rest
  rcases nextItem_of_splits hps with ⟨hall, hnext⟩ | ⟨gaps, p, qs, item, rfl, -, -, hend, -, hnext⟩
  · exact .inl ⟨(isTrivia_iff c.rest).2 ⟨ps, hps, hall⟩, hnext⟩
  · refine .inr ⟨fun htrivia => ?_, textOf gaps ++ p.text, textOf qs, item, ?_, ?_, hend, hnext⟩
    · obtain ⟨ps', hps', hall'⟩ := (isTrivia_iff c.rest).1 htrivia
      rcases nextItem_of_splits hps' with ⟨-, hnext'⟩ | ⟨gaps', p', qs', item', rfl, -, hitem', -⟩
      · obtain rfl : item = _ := congrArg Prod.fst (hnext.symm.trans hnext')
        cases hend
      · have hgap : p'.role = .gap := hall' p' (by simp)
        simp [Piece.item?, hgap] at hitem'
    · rw [hps.text_eq, textOf_append, textOf_cons, List.append_assoc]
    · exact List.append_ne_nil_of_right_ne_nil _ hps.leads.text_ne_nil

end Cursor

/-! ## Calls of a scanner -/

/-- What a call leads to, if the scanner has not yielded the end of its text. -/
structure Scanner.Yields (s : Scanner) (item : Item) (after : Scanner) : Prop where
  /-- The call returns the item. -/
  next_eq : s.next = (some item, after)
  /-- The item is the end exactly where nothing but blanks and comments is left. -/
  isEnd_iff : item.isEnd = true ↔ IsTrivia s.cursor.rest
  /-- Any other item uses up bytes and characters. -/
  advances : item.isEnd = false →
    s.cursor.offset < after.cursor.offset ∧ after.cursor.rest.length < s.cursor.rest.length
  /-- The end is remembered. -/
  finished_eq : after.finished = item.isEnd

namespace Scanner

variable {s : Scanner}

/-- Every call before the end returns an item. -/
theorem exists_yields (h : s.finished = false) : ∃ item after, s.Yields item after := by
  have hcall : s.next =
      (some s.cursor.nextItem.1, ⟨s.cursor.nextItem.2, s.cursor.nextItem.1.isEnd⟩) := by
    rw [next, if_neg (by rw [h]; decide)]
  refine ⟨_, _, hcall, ?_, fun hend => ?_, rfl⟩
  · rcases s.cursor.nextItem_cases with
      ⟨htrivia, hnext⟩ | ⟨hnot, passed, behind, item, -, -, hend, hnext⟩
    · rw [hnext]
      exact ⟨fun _ => htrivia, fun _ => rfl⟩
    · rw [hnext]
      exact ⟨fun hitem => absurd (hend.symm.trans hitem) (by decide),
        fun htrivia => absurd htrivia hnot⟩
  · rcases s.cursor.nextItem_cases with
      ⟨-, hnext⟩ | ⟨-, passed, behind, item, hrest, hne, -, hnext⟩
    · rw [hnext] at hend
      cases hend
    · have hbytes := byteLength_pos hne
      have hchars := List.length_pos_iff.2 hne
      rw [hnext, hrest, Cursor.past_offset, Cursor.past_rest, List.length_append]
      omega

/-- Behind the end a call returns nothing, and changes nothing. -/
lemma next_of_finished (h : s.finished = true) : s.next = (none, s) := if_pos h

/-- Nothing is returned exactly behind the end. -/
lemma next_eq_none_iff : s.next.1 = none ↔ s.finished = true := by
  cases h : s.finished with
  | true => simp [next_of_finished h]
  | false =>
    obtain ⟨item, after, hyields⟩ := exists_yields h
    simp [hyields.next_eq]

/-- Behind the end no number of calls finds anything or changes the scanner. -/
lemma nth_of_finished (h : s.finished = true) (n : Nat) : s.nth n = (none, s) := by
  cases n with
  | zero => exact next_of_finished h
  | succ n => rw [nth, next_of_finished h]

/-- The same for calls that collect items. -/
lemma take_of_finished (h : s.finished = true) (n : Nat) : s.take n = ([], s) := by
  cases n with
  | zero => rfl
  | succ n => rw [take, next_of_finished h]

/-- One more call. -/
lemma take_add_one (n : Nat) (s : Scanner) :
    s.take (n + 1) = ((s.take n).1 ++ (s.take n).2.next.1.toList, (s.take n).2.next.2) := by
  induction n generalizing s with
  | zero =>
    rw [take]
    cases hnext : s.next with
    | mk found after => cases found <;> simp [take, hnext]
  | succ n ih =>
    cases h : s.finished with
    | true => simp [take_of_finished h, next_of_finished h]
    | false =>
      obtain ⟨item, after, hyields⟩ := exists_yields h
      rw [take, take, hyields.next_eq]
      simp [ih after]

/-- Behind the end nothing is collected, and no record is made. -/
lemma collectLogged_of_finished (h : s.finished = true) (n : Nat) :
    s.collectLogged n = ⟨⟨[], []⟩, []⟩ := by
  cases n with
  | zero => rfl
  | succ n =>
    simp only [collectLogged, bind, nextLogged, h, if_true]
    rfl

/-- Calls behind the end are not noticed in the result of a scan, nor in its log.

**Proof sketch.** Induction on the number of calls that reach the end. -/
theorem collectLogged_of_finished_take {n m : Nat} (h : (s.take n).2.finished = true)
    (hle : n ≤ m) : s.collectLogged m = s.collectLogged n := by
  induction n generalizing s m with
  | zero =>
    have hfinished : s.finished = true := h
    rw [collectLogged_of_finished hfinished, collectLogged_of_finished hfinished]
  | succ n ih =>
    obtain ⟨m, rfl⟩ : ∃ k, m = k + 1 := ⟨m - 1, by omega⟩
    rw [take] at h
    simp only [collectLogged, bind, nextLogged_value]
    cases hnext : s.next with
    | mk found after =>
      rw [hnext] at h
      cases found with
      | none => rfl
      | some item =>
        have hsame : after.collectLogged m = after.collectLogged n := ih h (by omega)
        cases item <;> simp only [hsame]

end Scanner

/-! ## All items of a text -/

/-- The calls of a scanner yield the items `found`, and then nothing more. -/
structure Scanner.Exhausts (s : Scanner) (found : List Item) : Prop where
  /-- The items are yielded one after the other. -/
  take_eq : ∀ k, (s.take k).1 = found.take k
  /-- There are no more than the characters that are left, and one. -/
  length_le : found.length ≤ s.cursor.rest.length + 1
  /-- The last item is the end, and no other one is. -/
  ending : ∃ front l, found = front ++ [endItem l] ∧ ∀ item ∈ front, item.isEnd = false
  /-- All tokens but the one for the end have characters. -/
  lexeme_ne : ∀ t, .token t ∈ found → t.isEnd = false → t.lexeme ≠ ""
  /-- Every call behind the end returns nothing, and leaves the scanner as it is. -/
  nothing_more : ∃ last : Scanner, (∀ k, found.length ≤ k → s.take k = (found, last)) ∧
    ∀ n, last.nth n = (none, last)

/-- A token that is a piece has the characters of the piece. -/
lemma Leads.lexeme_ne {p : Piece} {rest : List Char} {l : Location} {t : Token} (h : Leads p rest)
    (hitem : p.item? l = some (.token t)) : t.lexeme ≠ "" := by
  cases hp : p.role with
  | lexeme kind =>
    rw [Piece.item?, hp] at hitem
    cases hitem
    simpa using h.text_ne_nil
  | gap | stray | openString => simp [Piece.item?, hp] at hitem

namespace Scanner

variable {s : Scanner} {found : List Item}

/-- A scanner that yields no more items than the given ones has come to its end behind them.

**Proof sketch.** One more call than there are items yields nothing more, so it finds the scanner
finished. From there on no call changes it. -/
lemma take_of_length_le (h : ∀ k, (s.take k).1 = found.take k) :
    (s.take found.length).2.finished = true ∧
      ∀ k, found.length ≤ k → s.take k = (found, (s.take found.length).2) := by
  have hfinished : (s.take found.length).2.finished = true := by
    have hall := h (found.length + 1)
    rw [take_add_one, h, List.take_of_length_le (Nat.le_refl _),
      List.take_of_length_le (Nat.le_succ _), List.append_right_eq_self] at hall
    exact next_eq_none_iff.1 (Option.toList_eq_nil_iff.1 hall)
  refine ⟨hfinished, fun k hk => ?_⟩
  induction k, hk using Nat.le_induction with
  | base =>
    refine Prod.ext ?_ rfl
    rw [h, List.take_of_length_le (Nat.le_refl _)]
  | succ k hk ih => simp [take_add_one, ih, next_of_finished hfinished]

/-- A scanner that has not yielded the end exhausts the pieces of what is left. -/
theorem exhausts_of_splits {ps : List Piece} (h : s.finished = false)
    (hs : Splits s.cursor.rest ps) : s.Exhausts (place s.cursor.location ps) where
  take_eq k := take_of_splits k h hs
  length_le := (place_length_le _ ps).trans (Nat.succ_le_succ hs.length_le)
  ending := ⟨itemsOf s.cursor.location ps, _, rfl, fun _ => hs.isEnd_eq_false⟩
  lexeme_ne t ht hend := by
    rcases List.mem_append.1 ht with hpiece | hlast
    · obtain ⟨before, p, behind, rfl, hp⟩ := exists_piece_of_mem hpiece
      exact hs.leads.lexeme_ne hp
    · cases List.mem_singleton.1 hlast
      cases hend
  nothing_more :=
    have hbehind := take_of_length_le fun k => take_of_splits k h hs
    ⟨_, hbehind.2, nth_of_finished hbehind.1⟩

end Scanner

/-- There is a token or an error for each item. -/
lemma Scan.length_ofItems (found : List Item) :
    (ofItems found).tokens.length + (ofItems found).errors.length = found.length := by
  induction found with
  | nil => rfl
  | cons item found ih =>
    cases item <;> simp only [ofItems, List.filterMap_cons, Item.token?, Item.error?,
      List.length_cons] at ih ⊢ <;> omega

/-- The tokens of items that end with the end of the text. -/
lemma Scan.tokens_ofItems_append_end (front : List Item) (l : Location) :
    (ofItems (front ++ [endItem l])).tokens =
      front.filterMap Item.token? ++ [⟨.endOfInput, "", Span.empty l⟩] :=
  List.filterMap_append

/-- The items of a text are those that a scanner for it exhausts. -/
theorem exhausts_items (source : String) : (Scanner.ofString source).Exhausts (items source) := by
  obtain ⟨ps, hps⟩ := exists_splits source.toList
  rw [items_of_splits hps]
  exact Scanner.exhausts_of_splits rfl hps

/-- The tokens of a text end with the only one for the end, and no other one is empty. -/
theorem tokens_scan (source : String) :
    ∃ front l, (scan source).tokens = front ++ [⟨.endOfInput, "", Span.empty l⟩] ∧
      ∀ t ∈ front, t.isEnd = false ∧ t.lexeme ≠ "" := by
  have hexhausts := exhausts_items source
  obtain ⟨front, l, hitems, hfront⟩ := hexhausts.ending
  refine ⟨front.filterMap Item.token?, l, ?_, fun t ht => ?_⟩
  · rw [scan, hitems, Scan.tokens_ofItems_append_end]
  · obtain ⟨item, hitem, htoken⟩ := List.mem_filterMap.1 ht
    obtain rfl : item = .token t := by cases item <;> simp_all [Item.token?]
    have hend := hfront _ hitem
    exact ⟨hend, hexhausts.lexeme_ne t (by simp [hitems, hitem]) hend⟩

/-- **A scanner comes to its end.** Each of its loops uses up the text: a run of moves goes round
once for each character that it passes, and at most as many blanks and comments follow each other as
characters are passed; the item behind them is the next one. So a call of a scanner that has not
yielded the end returns an item. Where nothing but blanks and comments is left, the item is the end;
else the call passes at least one character. A scanner for a text exhausts the items of the text.
These are at most one more than there are characters, the end is the last of them and only there,
and every call behind it returns nothing and leaves the scanner as it is. The scan of the text makes
enough calls for all items: more calls would not change its result or its log. It has a list of
tokens that ends with the only token for the end, and there are as many tokens and errors as items.

**Proof sketch.** The items are those of the pieces of the text, and no piece is empty. -/
theorem scanner_comes_to_end (source : String) :
    (∀ c : Cursor,
      (∀ p, (c.passWhile p).1 + (c.passWhile p).2.rest.length = c.rest.length) ∧
      ∃ k d, c.Skips k d ∧ (∀ e, d.step ≠ .skip e) ∧ c.nextItem = d.nextItem ∧
        k + d.rest.length ≤ c.rest.length) ∧
    (∀ s : Scanner, s.finished = false → ∃ item after, s.Yields item after) ∧
    (Scanner.ofString source).Exhausts (items source) ∧
    (∀ n, source.toList.length + 1 ≤ n → (Scanner.ofString source).collectLogged n =
      (Scanner.ofString source).collectLogged (source.toList.length + 1)) ∧
    (∃ front l, (scanLogged source).value.tokens = front ++ [⟨.endOfInput, "", Span.empty l⟩] ∧
      ∀ t ∈ front, t.isEnd = false ∧ t.lexeme ≠ "") ∧
    (scanLogged source).value.tokens.length + (scanLogged source).value.errors.length ≤
      source.toList.length + 1 := by
  have hexhausts := exhausts_items source
  have hlength : (items source).length ≤ source.toList.length + 1 := hexhausts.length_le
  refine ⟨fun c => ⟨fun p => c.passWhile_count p, ?_⟩, fun s => Scanner.exists_yields, hexhausts,
    fun n hn => ?_, ?_, ?_⟩
  · obtain ⟨k, d, hskips, hstop, hle⟩ := c.exists_skips
    exact ⟨k, d, hskips, hstop, hskips.nextItem_eq, hle⟩
  · obtain ⟨last, hlast, hnone⟩ := hexhausts.nothing_more
    refine Scanner.collectLogged_of_finished_take ?_ hn
    rw [hlast _ hlength]
    exact Scanner.next_eq_none_iff.1 (congrArg Prod.fst (hnone 0))
  · rw [scanLogged_value]
    exact tokens_scan source
  · rw [scanLogged_value, scan, Scan.length_ofItems]
    exact hlength

/-- The end also comes behind a string that is open: there are three items of four characters. -/
theorem scanner_comes_to_end_of_open_string :
    (∃ item after, (Scanner.ofString "a \"é").Yields item after) ∧
      (Scanner.ofString "a \"é").Exhausts
        [.token ⟨.identifier, "a", ⟨⟨1, 1⟩, ⟨1, 2⟩⟩⟩, .error (.unterminatedString ⟨⟨1, 3⟩, ⟨1, 5⟩⟩),
          endItem ⟨1, 5⟩] ∧
      (Scanner.ofString "a \"é").collectLogged 9 = (Scanner.ofString "a \"é").collectLogged 5 := by
  have hitems : items "a \"é" =
      [.token ⟨.identifier, "a", ⟨⟨1, 1⟩, ⟨1, 2⟩⟩⟩, .error (.unterminatedString ⟨⟨1, 3⟩, ⟨1, 5⟩⟩),
        endItem ⟨1, 5⟩] := by
    decide +kernel
  obtain ⟨-, hyields, hexhausts, hmore, -, -⟩ := scanner_comes_to_end "a \"é"
  exact ⟨hyields _ rfl, hitems ▸ hexhausts, hmore 9 (by decide)⟩

end LoxLex
