import LoxLex.Proofs.LocationOrder
import LoxLex.Proofs.Placement
import Mathlib.Data.List.Nodup

set_option relaxedAutoImplicit false
set_option autoImplicit false

/-!
# Spans as addresses in the source

The items of a text lie in it one behind the other. The two locations of a span name two places of
the text, and between these places stands what the item is about; between the spans there is
nothing but blanks and comments. Since no two items begin at the same place, tokens and errors that
were sorted apart can be put together again.

## Main definitions

* `LoxLex.Region`, `LoxLex.regions` — where each character of a text stands.
* `LoxLex.gapMarks` — which characters of a text are blanks or in comments.
* `LoxLex.Item.Shows` — what stands between the two places of an item.
* `LoxLex.Addressed` — items that address a source without loss.
* `LoxLex.Scan.merged` — tokens and errors, put together by their starts.

## Main results

* `LoxLex.Leads.regions_append` — the characters of a piece are all of one region.
* `LoxLex.Splits.addressed` — the items of the pieces of a source address it.
* `LoxLex.items_addressed_and_merged` — so do the items of a scan, and merging restores them.
-/

namespace LoxLex

/-! ## Blanks and comments outside strings -/

/-- Where a character of a text can stand. -/
inductive Region where
  | code
  | comment
  | string

/-- For each character of a text whether it is a blank or part of a comment, outside strings. A
string goes from quote to quote, a comment from two slashes to the end of the line. -/
def gapMarks : Region → List Char → List Bool
  | _, [] => []
  | .code, '/' :: '/' :: text => true :: true :: gapMarks .comment text
  | .code, ch :: text => isBlank ch :: gapMarks (if ch = '\x22' then .string else .code) text
  | .comment, ch :: text => true :: gapMarks (if ch = '\n' then .code else .comment) text
  | .string, ch :: text => false :: gapMarks (if ch = '\x22' then .code else .string) text

/-- The region of each character of a text. The quotes of a string and the slashes of a comment
belong to it; the newline behind a comment does not. -/
def regions : Region → List Char → List Region
  | _, [] => []
  | .code, '/' :: '/' :: text => .comment :: .comment :: regions .comment text
  | .code, ch :: text =>
    if ch = '\x22' then .string :: regions .string text else .code :: regions .code text
  | .comment, ch :: text =>
    if ch = '\n' then .code :: regions .code text else .comment :: regions .comment text
  | .string, ch :: text => .string :: regions (if ch = '\x22' then .code else .string) text

/-- What is done with each character of a text and the same partner for all of them. -/
lemma zipWith_replicate_length {α β γ : Type} (f : α → β → γ) (a : α) (text : List β) :
    List.zipWith f (List.replicate text.length a) text = text.map (f a) := by
  rw [← List.map_const', List.zipWith_map_left, List.zipWith_self]

/-- Whether a character of a region is a blank outside strings or part of a comment. -/
def Region.isGap : Region → Char → Bool
  | code, ch => isBlank ch
  | comment, _ => true
  | string, _ => false

/-- The marks of a text are read off the regions of its characters. -/
lemma gapMarks_eq (r : Region) (text : List Char) :
    gapMarks r text = List.zipWith Region.isGap (regions r text) text := by
  fun_induction gapMarks r text with
  | case1 r => rw [regions, List.zipWith_nil_left]
  | case2 text ih => rw [ih]; rfl
  | case3 ch text hcomment ih =>
    rw [ih, regions.eq_3 ch text hcomment]
    split
    · next h => rw [h]; rfl
    · rfl
  | case4 ch text ih =>
    rw [ih, regions.eq_4]
    split
    · next h => rw [h]; rfl
    · rfl
  | case5 ch text ih => rw [ih, regions.eq_5]; rfl

/-- A blank is no quote and no slash. -/
lemma ne_quote_and_ne_slash_of_isBlank {ch : Char} (h : isBlank ch = true) :
    ch ≠ '\x22' ∧ ch ≠ '/' := by
  constructor <;> rintro rfl <;> exact absurd h (by decide)

/-- A character that is no quote and begins no comment leads to no other region. -/
lemma regions_code_cons {ch : Char} {text : List Char} (hquote : ch ≠ '\x22')
    (hslash : ch = '/' → text.head? ≠ some '/') :
    regions .code (ch :: text) = .code :: regions .code text := by
  rw [regions, if_neg hquote]
  rintro text' rfl rfl
  exact hslash rfl rfl

/-- Characters that are no quotes or slashes are all of the code. -/
lemma regions_code_append {run : List Char} (rest : List Char)
    (h : ∀ ch ∈ run, ch ≠ '\x22' ∧ ch ≠ '/') :
    regions .code (run ++ rest) = List.replicate run.length .code ++ regions .code rest := by
  induction run with
  | nil => rfl
  | cons ch run ih =>
    obtain ⟨⟨hquote, hslash⟩, hrun⟩ := List.forall_mem_cons.1 h
    rw [List.cons_append, regions_code_cons hquote (fun hs => absurd hs hslash), ih hrun]
    rfl

/-- A string goes on up to its closing quote. -/
lemma regions_string_append {body : List Char} (rest : List Char) (h : '\x22' ∉ body) :
    regions .string (body ++ rest) =
      List.replicate body.length .string ++ regions .string rest := by
  induction body with
  | nil => rfl
  | cons ch body ih =>
    obtain ⟨hch, hbody⟩ : ¬ '\x22' = ch ∧ '\x22' ∉ body := by simpa using h
    rw [List.cons_append, regions, if_neg (Ne.symm hch), ih hbody]
    rfl

/-- A comment goes on up to the end of its line. -/
lemma regions_comment_append {body : List Char} (rest : List Char) (h : '\n' ∉ body) :
    regions .comment (body ++ rest) =
      List.replicate body.length .comment ++ regions .comment rest := by
  induction body with
  | nil => rfl
  | cons ch body ih =>
    obtain ⟨hch, hbody⟩ : ¬ '\n' = ch ∧ '\n' ∉ body := by simpa using h
    rw [List.cons_append, regions, if_neg (Ne.symm hch), ih hbody]
    rfl

/-- At the end of a line the code goes on. -/
lemma regions_comment_of_end {rest : List Char} (h : ∀ ch, rest.head? = some ch → ch = '\n') :
    regions .comment rest = regions .code rest := by
  cases rest with
  | nil => rfl
  | cons ch rest =>
    obtain rfl := h ch rfl
    rw [regions_code_cons (by decide) (fun hs => absurd hs (by decide))]
    rfl

/-- The region of a piece, which is told by its first two characters. -/
def Piece.region (p : Piece) : Region :=
  match p.text with
  | '/' :: '/' :: _ => .comment
  | '\x22' :: _ => .string
  | _ => .code

/-- A piece is of the code if it has neither quotes nor slashes. -/
lemma Piece.region_of_code {p : Piece} (h : ∀ ch ∈ p.text, ch ≠ '\x22' ∧ ch ≠ '/') :
    p.region = .code := by
  rw [region]
  split
  · next htext => exact absurd rfl (h '/' (by simp [htext])).2
  · next htext => exact absurd rfl (h '\x22' (by simp [htext])).1
  · rfl

/-- All characters of a piece are of its region, and behind it the code goes on.

**Proof sketch.** By the form of the piece. The quotes of a string lead into its region and out of
it, the slashes of a comment into the region that the end of the line leads out of; all other
pieces consist of characters that mean the same everywhere, but for the slash, which has no other
slash behind it. -/
lemma Leads.regions_append {p : Piece} {rest : List Char} (h : Leads p rest) :
    regions .code (p.text ++ rest) =
      List.replicate p.text.length p.region ++ regions .code rest := by
  cases h with
  | @blank ch _ hch =>
    have hplain : ∀ c ∈ [ch], c ≠ '\x22' ∧ c ≠ '/' :=
      List.forall_mem_singleton.2 (ne_quote_and_ne_slash_of_isBlank hch)
    rw [Piece.region_of_code hplain]
    exact regions_code_append rest hplain
  | comment hcomment hend =>
    obtain ⟨body, rfl, hbody⟩ := hcomment
    show regions .code ('/' :: '/' :: (body ++ rest)) = _
    rw [regions, regions_comment_append rest hbody, regions_comment_of_end hend]
    rfl
  | @stray ch _ hch =>
    have hplain : ∀ c ∈ [ch], c ≠ '\x22' ∧ c ≠ '/' :=
      List.forall_mem_singleton.2 (isPlain_of_classOf (.inr (.inr hch))).2
    rw [Piece.region_of_code hplain]
    exact regions_code_append rest hplain
  | @openString body hbody =>
    show .string :: regions .string (body ++ []) = _
    rw [regions_string_append [] hbody]
    rfl
  | @lexeme kind text _ hlexeme hend =>
    by_cases hquote : kind.frontClass = .quote
    · cases hlexeme with
      | @string body hbody =>
        have hlength : ('\x22' :: (body ++ ['\x22'])).length = body.length + 1 + 1 := by simp
        show .string :: regions .string (body ++ ['\x22'] ++ rest) = _
        rw [List.append_assoc, regions_string_append _ hbody, hlength, List.replicate_succ,
          List.replicate_succ']
        simp [regions, Piece.region]
      | _ => cases hquote
    by_cases hslash : kind = .operator .slash
    · subst hslash
      cases hlexeme
      exact regions_code_cons (by decide) fun _ => hend.2 rfl
    · have hplain : ∀ c ∈ text, c ≠ '\x22' ∧ c ≠ '/' := fun c hc =>
        (hlexeme.isPlain hquote hslash c hc).2
      rw [Piece.region_of_code hplain]
      exact regions_code_append rest hplain

/-- The characters of a gap are blanks of the code or belong to a comment, and no others do. -/
lemma Leads.isGap_eq {p : Piece} {rest : List Char} (h : Leads p rest) :
    ∀ ch ∈ p.text, p.region.isGap ch = decide (p.role = .gap) := by
  have code : ∀ {q : Piece}, (∀ ch ∈ q.text, ch ≠ '\x22' ∧ ch ≠ '/') →
      (∀ ch ∈ q.text, isBlank ch = decide (q.role = .gap)) →
        ∀ ch ∈ q.text, q.region.isGap ch = decide (q.role = .gap) := by
    intro q hplain hblank ch hch
    rw [Piece.region_of_code hplain]
    exact hblank ch hch
  cases h with
  | blank hch =>
    exact code (List.forall_mem_singleton.2 (ne_quote_and_ne_slash_of_isBlank hch))
      (List.forall_mem_singleton.2 hch)
  | comment hcomment =>
    obtain ⟨body, rfl, -⟩ := hcomment
    exact fun _ _ => rfl
  | stray hch =>
    have hplain := isPlain_of_classOf (.inr (.inr hch))
    exact code (List.forall_mem_singleton.2 hplain.2) (List.forall_mem_singleton.2 hplain.1)
  | openString => exact fun _ _ => rfl
  | @lexeme kind text _ hlexeme =>
    by_cases hquote : kind.frontClass = .quote
    · cases hlexeme with
      | string => exact fun _ _ => rfl
      | _ => cases hquote
    by_cases hslash : kind = .operator .slash
    · subst hslash
      cases hlexeme
      exact List.forall_mem_singleton.2 rfl
    · have hplain := hlexeme.isPlain hquote hslash
      exact code (fun ch hch => (hplain ch hch).2) fun ch hch => (hplain ch hch).1

/-- Over a piece the marks tell whether it is a blank or a comment, and behind it the code goes
on. -/
lemma Leads.gapMarks_append {p : Piece} {rest : List Char} (h : Leads p rest) :
    gapMarks .code (p.text ++ rest) =
      List.replicate p.text.length (decide (p.role = .gap)) ++ gapMarks .code rest := by
  rw [gapMarks_eq, gapMarks_eq, h.regions_append, List.zipWith_append List.length_replicate,
    zipWith_replicate_length, List.map_eq_replicate_iff.2 h.isGap_eq]

/-! ## Where the items of pieces stand -/

/-- The span of an item. -/
def Item.span : Item → Span
  | .token t => t.span
  | .error e => e.span

/-- The item of a piece reaches from the first character of the piece to its last one. -/
lemma Piece.span_of_item? {l : Location} {p : Piece} {item : Item} (h : p.item? l = some item) :
    item.span = ⟨l, l.after p.text⟩ := by
  cases hp : p.role <;> simp only [item?, hp] at h <;> cases h <;> rfl

/-- No item begins before the pieces do. -/
lemma le_start_of_mem_place {l : Location} {ps : List Piece} {item : Item}
    (h : item ∈ place l ps) : l ≤ item.span.start := by
  rcases List.mem_append.1 h with hitem | hend
  · obtain ⟨before, p, behind, -, hp⟩ := exists_piece_of_mem hitem
    rw [Piece.span_of_item? hp]
    exact l.le_after _
  · obtain rfl := List.mem_singleton.1 hend
    exact l.le_after _

/-- The items of pieces follow each other: none begins before an earlier one ends.

**Proof sketch.** Induction on the pieces. The first item ends where the other pieces begin, and no
item of theirs begins before that. -/
lemma place_pairwise (l : Location) (ps : List Piece) :
    (place l ps).Pairwise fun a b => a.span.stop ≤ b.span.start := by
  induction ps generalizing l with
  | nil => simp
  | cons p ps ih =>
    rw [place_cons]
    cases hp : p.item? l with
    | none => exact ih _
    | some item =>
      refine List.pairwise_cons.2 ⟨fun b hb => ?_, ih _⟩
      rw [Piece.span_of_item? hp]
      exact le_start_of_mem_place hb

/-- Whether a location lies within a span. -/
def Span.Covers (s : Span) (l : Location) : Prop := s.start ≤ l ∧ l < s.stop

/-- The characters that no span covers are the blanks and those of comments.

**Proof sketch.** Induction on the pieces. A character of the first piece is covered by the item of
that piece, if it is one, and by no later one, since these begin behind the piece. A later
character is not covered by the item of the first piece, which ends before. -/
lemma Splits.uncovered_iff {text : List Char} {ps : List Piece} (h : Splits text ps) (l : Location)
    {i : Nat} (hi : i < text.length) :
    (∀ item ∈ place l ps, ¬ item.span.Covers (l.after (text.take i))) ↔
      (gapMarks .code text)[i]? = some true := by
  induction h generalizing l i with
  | nil => cases hi
  | @cons p rest ps hlead hs ih =>
    rw [hlead.gapMarks_append, place_cons]
    by_cases hfirst : i < p.text.length
    -- A character of the first piece: what its mark is depends on the piece alone.
    · have hmark : (List.replicate p.text.length (decide (p.role = .gap)) ++
          gapMarks .code rest)[i]? = some (decide (p.role = .gap)) := by
        rw [List.getElem?_append_left (by simpa using hfirst)]
        simp [hfirst]
      have hdrop : p.text.drop i ≠ [] := by
        rw [← List.length_pos_iff, List.length_drop]
        omega
      have hbefore : l.after (p.text.take i) < l.after p.text := by
        conv_rhs => rw [← List.take_append_drop i p.text, Location.after_append]
        exact Location.lt_after _ hdrop
      have hlater : ∀ item ∈ place (l.after p.text) ps,
          ¬ item.span.Covers (l.after (p.text.take i)) := fun item hitem hcovers =>
        Location.not_lt.2 (Location.le_trans (le_start_of_mem_place hitem) hcovers.1) hbefore
      rw [hmark, List.take_append_of_le_length (Nat.le_of_lt hfirst)]
      cases hp : p.item? l with
      | none =>
        have hgap : p.role = .gap := by
          cases hrole : p.role <;> simp_all [Piece.item?]
        simpa [hgap] using hlater
      | some item =>
        have hgap : p.role ≠ .gap := by
          intro hrole
          simp [Piece.item?, hrole] at hp
        have hcovers : item.span.Covers (l.after (p.text.take i)) := by
          rw [Piece.span_of_item? hp]
          exact ⟨l.le_after _, hbefore⟩
        simp [hgap, hcovers]
    -- A character behind it: the first item ends before, so it is covered by a later one or none.
    · have htake : (p.text ++ rest).take i = p.text ++ rest.take (i - p.text.length) := by
        rw [List.take_append, List.take_of_length_le (Nat.le_of_not_lt hfirst)]
      have hitem : ∀ item, p.item? l = some item →
          ¬ item.span.Covers (l.after (p.text ++ rest.take (i - p.text.length))) := by
        intro item hp hcovers
        rw [Piece.span_of_item? hp, Location.after_append] at hcovers
        exact Location.not_lt.2 (Location.le_after _ _) hcovers.2
      have hrest := ih (l.after p.text) (i := i - p.text.length)
        (by rw [List.length_append] at hi; omega)
      rw [htake, List.getElem?_append_right (by simpa using hfirst), List.length_replicate,
        ← hrest, Location.after_append]
      rw [Location.after_append] at hitem
      cases hp : p.item? l with
      | none => simp
      | some item => simpa using fun _ => hitem item hp

/-! ## Items as addresses -/

/-- What stands between the `i`-th and the `j`-th place of a source according to an item: the
lexeme of a token, the character that was not expected, or a string that is left open, which
reaches to the end. -/
def Item.Shows (source : List Char) (i j : Nat) : Item → Prop
  | .token t => (source.take j).drop i = t.lexeme.toList
  | .error (.unexpectedCharacter ch _) => (source.take j).drop i = [ch]
  | .error (.unterminatedString _) =>
    j = source.length ∧ ∃ body, (source.take j).drop i = '\x22' :: body ∧ '\x22' ∉ body

/-- Items that address a source without loss. -/
structure Addressed (source : List Char) (found : List Item) : Prop where
  /-- Each end of a span is the location of exactly one place of the source, and between the two
  places stands what the item is about. -/
  cut : ∀ item ∈ found, ∃ i j, i ≤ j ∧ j ≤ source.length ∧
    (∀ k ≤ source.length, locationAt source k = item.span.start ↔ k = i) ∧
    (∀ k ≤ source.length, locationAt source k = item.span.stop ↔ k = j) ∧
    item.Shows source i j
  /-- Only the end of the source has an empty span. -/
  nonempty : ∀ item ∈ found, item.isEnd = false → item.span.start < item.span.stop
  /-- No item begins before an earlier one ends. -/
  ordered : found.Pairwise fun a b => a.span.stop ≤ b.span.start
  /-- The end comes last and only once. It stands behind the last character. -/
  ending : ∃ front, found = front ++ [endItem (locationAt source source.length)] ∧
    ∀ item ∈ front, item.isEnd = false
  /-- What no span covers are the blanks and comments outside strings. -/
  uncovered : ∀ i < source.length,
    (∀ item ∈ found, ¬ item.span.Covers (locationAt source i)) ↔
      (gapMarks .code source)[i]? = some true

/-- The end of a source shows that nothing is left. -/
lemma shows_endItem (source : List Char) (l : Location) :
    (endItem l).Shows source source.length source.length := by
  simp [Item.Shows, endItem]

/-- The item of a piece shows what it is about, between the first place and the last one of the
piece.

**Proof sketch.** What is cut out is the text of the piece. An open string has nothing behind
it. -/
lemma Leads.shows {p : Piece} {rest : List Char} (h : Leads p rest) (before : List Char)
    {l : Location} {item : Item} (hitem : p.item? l = some item) :
    item.Shows (before ++ p.text ++ rest) before.length (before ++ p.text).length := by
  have hcut : ((before ++ p.text ++ rest).take (before ++ p.text).length).drop before.length =
      p.text := by
    rw [List.take_left, List.drop_left]
  cases h with
  | blank | comment => cases hitem
  | stray | lexeme => cases hitem; simpa [Item.Shows] using hcut
  | @openString body hbody =>
    cases hitem
    exact ⟨by simp, body, hcut, hbody⟩

/-- A place of a source is the only one at its location. -/
lemma locationAt_eq_iff {source : List Char} {before rest : List Char} (h : source = before ++ rest)
    {k : Nat} (hk : k ≤ source.length) :
    locationAt source k = Location.start.after before ↔ k = before.length := by
  subst h
  rw [← locationAt_append before rest]
  exact locationAt_inj hk (by simp)

namespace Splits

variable {source : List Char} {ps : List Piece}

/-- Each item of a source lies between two places of it, and shows what is there. -/
lemma cut (h : Splits source ps) {item : Item} (hitem : item ∈ place Location.start ps) :
    ∃ i j, i ≤ j ∧ j ≤ source.length ∧
      (∀ k ≤ source.length, locationAt source k = item.span.start ↔ k = i) ∧
      (∀ k ≤ source.length, locationAt source k = item.span.stop ↔ k = j) ∧
      item.Shows source i j := by
  rcases List.mem_append.1 hitem with hpiece | hend
  · obtain ⟨before, p, behind, rfl, hp⟩ := exists_piece_of_mem hpiece
    have hsource : source = textOf before ++ p.text ++ textOf behind := by
      rw [h.text_eq, textOf_append, textOf_cons, List.append_assoc]
    refine ⟨(textOf before).length, (textOf before ++ p.text).length, by simp, ?_, ?_, ?_, ?_⟩
    · simp [hsource]
    · intro k hk
      rw [Piece.span_of_item? hp]
      exact locationAt_eq_iff (hsource.trans (List.append_assoc _ _ _)) hk
    · intro k hk
      rw [Piece.span_of_item? hp, ← Location.after_append]
      exact locationAt_eq_iff hsource hk
    · rw [hsource]
      exact h.leads.shows (textOf before) hp
  · obtain rfl := List.mem_singleton.1 hend
    rw [← h.text_eq]
    have only : ∀ k ≤ source.length, locationAt source k = Location.start.after source ↔
        k = source.length := fun k hk => locationAt_eq_iff (List.append_nil source).symm hk
    exact ⟨_, _, le_rfl, le_rfl, only, only, shows_endItem source _⟩

/-- An item that is not the end has characters. -/
lemma span_nonempty (h : Splits source ps) {l : Location} {item : Item}
    (hitem : item ∈ itemsOf l ps) : item.span.start < item.span.stop := by
  obtain ⟨before, p, behind, rfl, hp⟩ := exists_piece_of_mem hitem
  rw [Piece.span_of_item? hp]
  exact Location.lt_after _ h.leads.text_ne_nil

/-- The items of the pieces of a source address it without loss. -/
theorem addressed (h : Splits source ps) : Addressed source (place Location.start ps) where
  cut _ := h.cut
  nonempty item hitem hend := by
    rcases List.mem_append.1 hitem with hpiece | hlast
    · exact h.span_nonempty hpiece
    · obtain rfl := List.mem_singleton.1 hlast
      cases hend
  ordered := place_pairwise _ ps
  ending := by
    refine ⟨itemsOf Location.start ps, ?_, fun _ => h.isEnd_eq_false⟩
    rw [place, ← h.text_eq, locationAt, List.take_length, Location.after_start]
  uncovered i hi := by
    rw [← h.uncovered_iff Location.start hi, locationAt, Location.after_start]

end Splits

/-! ## Putting tokens and errors together -/

/-- Tokens and errors in one list, ordered by where they begin. -/
def Scan.merged (r : Scan) : List Item :=
  List.merge (r.tokens.map Item.token) (r.errors.map Item.error)
    fun a b => (compare a.span.start b.span.start).isLE

/-- Sorting items into tokens and errors loses none and doubles none. -/
lemma Scan.ofItems_perm (found : List Item) :
    ((ofItems found).tokens.map Item.token ++ (ofItems found).errors.map Item.error).Perm
      found := by
  induction found with
  | nil => exact .nil
  | cons item found ih =>
    cases item with
    | token t => exact ih.cons _
    | error e => exact List.perm_middle.trans (ih.cons _)

/-- The tokens of items are in the order of the items. -/
lemma Scan.tokens_sublist (found : List Item) :
    ((ofItems found).tokens.map Item.token).Sublist found := by
  induction found with
  | nil => exact .slnil
  | cons item found ih =>
    cases item with
    | token t => exact ih.cons_cons _
    | error e => exact ih.cons _

/-- The errors of items are in the order of the items. -/
lemma Scan.errors_sublist (found : List Item) :
    ((ofItems found).errors.map Item.error).Sublist found := by
  induction found with
  | nil => exact .slnil
  | cons item found ih =>
    cases item with
    | token t => exact ih.cons _
    | error e => exact ih.cons_cons _

/-- Each item that addresses a source begins behind the beginnings of all earlier ones.

**Proof sketch.** An earlier item is not the end of the source, for that one comes last; so it has
characters, and it ends behind its beginning. -/
lemma Addressed.starts_lt {source : List Char} {found : List Item} (h : Addressed source found) :
    found.Pairwise fun a b => a.span.start < b.span.start := by
  obtain ⟨front, rfl, hfront⟩ := h.ending
  have hlt : ∀ a ∈ front, a.span.start < a.span.stop := fun a ha =>
    h.nonempty a (List.mem_append_left _ ha) (hfront a ha)
  obtain ⟨hordered, -, hlast⟩ := List.pairwise_append.1 h.ordered
  refine List.pairwise_append.2 ⟨?_, List.pairwise_singleton _ _, fun a ha b hb => ?_⟩
  · exact hordered.imp_of_mem fun ha _ hle => Location.lt_of_lt_of_le (hlt _ ha) hle
  · exact Location.lt_of_lt_of_le (hlt a ha) (hlast a ha b hb)

/-- Items with later and later beginnings can be told apart by them. -/
lemma eq_of_start_eq {found : List Item}
    (h : found.Pairwise fun a b => a.span.start < b.span.start) {a b : Item} (ha : a ∈ found)
    (hb : b ∈ found) (heq : a.span.start = b.span.start) : a = b := by
  have hnodup : (found.map fun item => item.span.start).Nodup := by
    refine List.pairwise_map.2 (h.imp fun hlt hsame => ?_)
    exact Location.not_lt.2 (hsame ▸ Location.le_refl _) hlt
  exact List.inj_on_of_nodup_map hnodup ha hb heq

/-- Tokens and errors that are ordered by their beginnings are in the order in which they were
found.

**Proof sketch.** Both lists have the same items in ascending order, and no two of these begin at
the same place. -/
lemma eq_of_perm_of_ascending {found merged : List Item}
    (h : found.Pairwise fun a b => a.span.start < b.span.start)
    (hperm : merged.Perm ((Scan.ofItems found).tokens.map Item.token ++
      (Scan.ofItems found).errors.map Item.error))
    (hmerged : merged.Pairwise fun a b => a.span.start ≤ b.span.start) : merged = found := by
  have hsame := hperm.trans (Scan.ofItems_perm found)
  refine hsame.eq_of_pairwise (fun a b ha hb hle hle' => ?_) hmerged (h.imp Location.le_of_lt)
  exact eq_of_start_eq h (hsame.subset ha) hb (Location.le_antisymm hle hle')

/-- Merging tokens and errors keeps them in ascending order. -/
lemma Scan.merged_ascending {found : List Item}
    (h : found.Pairwise fun a b => a.span.start < b.span.start) :
    (ofItems found).merged.Pairwise fun a b => a.span.start ≤ b.span.start := by
  have hle := h.imp Location.le_of_lt
  refine List.pairwise_merge (fun a b c hab hbc => ?_) (fun a b => ?_) _ _
    (hle.sublist (tokens_sublist found)) (hle.sublist (errors_sublist found))
  · exact Location.le_trans hab hbc
  · rw [Bool.or_eq_true]
    show a.span.start ≤ b.span.start ∨ b.span.start ≤ a.span.start
    rw [Location.le_iff, Location.le_iff]
    omega

/-- **The items of a scan address its source without loss.** Between the two places that a span
names stands what the item is about, and nothing but blanks and comments is left between the spans.
So the order in which the items were found is that of their beginnings: whatever way tokens and
errors are put together by these, the items are restored.

**Proof sketch.** The items are those of the pieces of the source, which address it. An item has
characters or is the last one, so each begins behind the beginnings of all earlier ones. -/
theorem items_addressed_and_merged (source : String) :
    Addressed source.toList (items source) ∧
      (∀ merged : List Item,
        merged.Perm ((scan source).tokens.map Item.token ++ (scan source).errors.map Item.error) →
        (merged.Pairwise fun a b => a.span.start ≤ b.span.start) → merged = items source) ∧
      (scan source).merged = items source := by
  obtain ⟨ps, hps⟩ := exists_splits source.toList
  have haddressed := items_of_splits hps ▸ hps.addressed
  have hstarts := haddressed.starts_lt
  refine ⟨haddressed, fun merged => eq_of_perm_of_ascending hstarts, ?_⟩
  refine eq_of_perm_of_ascending hstarts ?_ (Scan.merged_ascending hstarts)
  exact List.merge_perm_append _

end LoxLex
