import LoxLex.Proofs.Resumption

set_option relaxedAutoImplicit false
set_option autoImplicit false

/-!
# Texts that go on in an open string

When the end of a text finds a string open, more text can only go on with this string. As long as
no quote comes, the string stays open and everything else stays as it is. With the first quote the
string is closed, and what is behind the quote is scanned as if it stood alone.

## Main definitions

* `LoxLex.EndsOpen` — a text ends in an open string, behind pieces that are settled.

## Main results

* `LoxLex.EndsOpen.splits_append` — the pieces in front of the quote stay, whatever follows it.
* `LoxLex.EndsOpen.items_append`, `LoxLex.EndsOpen.items_append_close` — the items of the longer
  text if the string stays open, and if it is closed.
* `LoxLex.items_append_of_openString` — what becomes of a text with an open string.
-/

namespace LoxLex

/-- A text ends in an open string: in front of its opening quote stand pieces, and behind it there
is no other quote. -/
structure EndsOpen (source : String) (before : List Piece) (body : String) : Prop where
  splits : Splits source.toList (before ++ [⟨.openString, '\x22' :: body.toList⟩])
  quote_not_mem : '\x22' ∉ body.toList

/-- A text ends in the open string that its scan reports. -/
lemma exists_endsOpen {source : String} {span : Span}
    (h : .unterminatedString span ∈ (scan source).errors) :
    ∃ before body, EndsOpen source before body ∧ span.start = Location.start.after (textOf before) ∧
      span.stop = Location.start.after source.toList := by
  obtain ⟨ps, hps⟩ := exists_splits source.toList
  rw [scan_of_splits hps] at h
  obtain ⟨item, hitem, herror⟩ := List.mem_filterMap.1 h
  rcases List.mem_append.1 hitem with hitem | hend
  · obtain ⟨before, p, behind, rfl, hp⟩ := exists_piece_of_mem hitem
    have hopen : p.role = .openString := by
      cases hrole : p.role <;> simp only [Piece.item?, hrole] at hp <;> cases hp <;> cases herror
      rfl
    obtain ⟨rfl, body, rfl, hbody⟩ := hps.openString_end hopen
    cases hp
    cases herror
    refine ⟨before, String.ofList body, ⟨?_, ?_⟩, rfl, ?_⟩
    · rwa [String.toList_ofList]
    · rwa [String.toList_ofList]
    · rw [hps.text_eq, textOf_append, Location.after_append]
      simp
  · obtain rfl := List.mem_singleton.1 hend
    cases herror

namespace EndsOpen

variable {source body : String} {before : List Piece}

/-- The characters of the text. -/
lemma toList_eq (h : EndsOpen source before body) :
    source.toList = textOf before ++ '\x22' :: body.toList := by
  simpa using h.splits.text_eq

/-- The text is what the pieces make up, the quote, and the body. -/
lemma eq_append (h : EndsOpen source before body) :
    source = String.ofList (textOf before) ++ "\"" ++ body := by
  simp [← String.toList_inj, h.toList_eq]

/-- Whatever follows the opening quote, the pieces in front of it stay. -/
lemma splits_append (h : EndsOpen source before body) {text : List Char} {ps : List Piece}
    (hps : Splits ('\x22' :: text) ps) :
    Splits (textOf before ++ '\x22' :: text) (before ++ ps) := by
  have hsplits := h.splits
  rw [h.toList_eq] at hsplits
  exact hsplits.change_behind (.of_ne_point (by decide) body.toList text) hps

/-- If no quote follows, the items are those in front of the string, the string, which is open up
to the end, and the end. -/
lemma items_append (h : EndsOpen source before body) {t : String} (ht : '\x22' ∉ t.toList) :
    let stop := Location.start.after (source ++ t).toList
    items (source ++ t) =
      itemsOf Location.start before ++
        [.error (.unterminatedString ⟨Location.start.after (textOf before), stop⟩),
          endItem stop] := by
  intro stop
  have hbody : '\x22' ∉ body.toList ++ t.toList := by simp [h.quote_not_mem, ht]
  have hstring : Splits ('\x22' :: (body.toList ++ t.toList))
      [⟨.openString, '\x22' :: (body.toList ++ t.toList)⟩] := by
    simpa using Splits.cons (.openString hbody) .nil
  have htext : (source ++ t).toList = textOf before ++ '\x22' :: (body.toList ++ t.toList) := by
    rw [String.toList_append, h.toList_eq, List.append_assoc, List.cons_append]
  have hstop : stop =
      (Location.start.after (textOf before)).after ('\x22' :: (body.toList ++ t.toList)) := by
    rw [← Location.after_append, ← htext]
  have hwhole := h.splits_append hstring
  rw [← htext] at hwhole
  rw [items_of_splits hwhole, place_append, place_cons, place_nil, hstop]
  rfl

/-- If a quote follows, the items are those in front of the string, the string, and those of the
text behind its closing quote, moved there. -/
lemma items_append_close (h : EndsOpen source before body) {u : String} (hu : '\x22' ∉ u.toList)
    (v : String) :
    let close := Location.start.after (source ++ u ++ "\"").toList
    items (source ++ (u ++ "\"" ++ v)) =
      itemsOf Location.start before ++
        .token ⟨.literal (.string (body ++ u)), "\"" ++ body ++ u ++ "\"",
          ⟨Location.start.after (textOf before), close⟩⟩ ::
          (items v).map (Item.relocate close.translate) := by
  intro close
  obtain ⟨vs, hvs⟩ := exists_splits v.toList
  have hbody : '\x22' ∉ (body ++ u).toList := by simp [h.quote_not_mem, hu]
  have hstring : Splits ('\x22' :: ((body ++ u).toList ++ ['\x22']) ++ v.toList)
      (⟨.lexeme (.literal (.string (String.ofList (body ++ u).toList))),
        '\x22' :: ((body ++ u).toList ++ ['\x22'])⟩ :: vs) :=
    .cons (.lexeme (.string hbody) trivial) hvs
  have htext : (source ++ (u ++ "\"" ++ v)).toList =
      textOf before ++ ('\x22' :: ((body ++ u).toList ++ ['\x22']) ++ v.toList) := by
    simp [h.toList_eq]
  have hclose : close =
      (Location.start.after (textOf before)).after
        ('\x22' :: ((body ++ u).toList ++ ['\x22'])) := by
    rw [← Location.after_append]
    simp [close, h.toList_eq]
  have hwhole : Splits (source ++ (u ++ "\"" ++ v)).toList
      (before ++ ⟨.lexeme (.literal (.string (String.ofList (body ++ u).toList))),
        '\x22' :: ((body ++ u).toList ++ ['\x22'])⟩ :: vs) :=
    htext ▸ h.splits_append hstring
  rw [items_of_splits hwhole, items_of_splits hvs,
    ← place_relocate (Location.translate_after close), place_append, place_cons, ← hclose]
  simp [Piece.item?, hclose, ← String.toList_inj]

end EndsOpen

/-- Behind other items an error and the end are the last error and the last token. -/
lemma Scan.ofItems_concat_error (before : List Item) (e : LexError) (l : Location) :
    ofItems (before ++ [.error e, endItem l]) =
      ⟨(ofItems before).tokens ++ [⟨.endOfInput, "", Span.empty l⟩],
        (ofItems before).errors ++ [e]⟩ := by
  rw [ofItems_append]
  rfl

/-- **Going on in an open string.** Take a text the scan of which reports an open string, and let
`before` be its items in front of this string. More text without a quote leaves the tokens and the
errors as they are, but that the string, and with it the text, now ends where the longer text ends.
If more text has a quote, then behind `before` comes the string that ends with the first such quote,
and then come the items of what is behind the quote, moved there. So whatever comes does not change
what was found in front of the string.

**Proof sketch.** A quote hides from the pieces in front of it what follows. The piece that it
begins goes on to the next quote, or to the end if there is none. -/
theorem items_append_of_openString (source : String) {span : Span}
    (h : .unterminatedString span ∈ (scan source).errors) :
    ∃ (before : List Item) (front body : String),
      source = front ++ "\"" ++ body ∧ span.start = Location.start.after front.toList ∧
      items source = before ++ [.error (.unterminatedString span), endItem span.stop] ∧
      (∀ t : String, '\x22' ∉ t.toList →
        let stop := Location.start.after (source ++ t).toList
        (scan (source ++ t)).tokens =
            (scan source).tokens.dropLast ++ [⟨.endOfInput, "", Span.empty stop⟩] ∧
          (scan (source ++ t)).errors =
            (scan source).errors.dropLast ++ [.unterminatedString ⟨span.start, stop⟩]) ∧
      (∀ u v : String, '\x22' ∉ u.toList →
        let close := Location.start.after (source ++ u ++ "\"").toList
        items (source ++ (u ++ "\"" ++ v)) =
          before ++
            .token ⟨.literal (.string (body ++ u)), "\"" ++ body ++ u ++ "\"",
              ⟨span.start, close⟩⟩ ::
              (items v).map (Item.relocate close.translate)) ∧
      ∀ line : String, before <+: items (source ++ line) := by
  obtain ⟨before, body, hends, hstart, hstop⟩ := exists_endsOpen h
  have hitems : items source =
      itemsOf Location.start before ++ [.error (.unterminatedString span), endItem span.stop] := by
    have hnothing := hends.items_append (t := "") (by simp)
    rw [String.append_empty, ← hstart, ← hstop] at hnothing
    exact hnothing
  refine ⟨itemsOf Location.start before, String.ofList (textOf before), body, hends.eq_append, ?_,
    hitems, fun t ht => ?_, fun u v hu => ?_, fun line => ?_⟩
  · rw [String.toList_ofList, hstart]
  · rw [scan, scan, hends.items_append ht, hitems, hstart, Scan.ofItems_concat_error,
      Scan.ofItems_concat_error, List.dropLast_concat, List.dropLast_concat]
    exact ⟨rfl, rfl⟩
  · rw [hstart]
    exact hends.items_append_close hu v
  · rcases exists_close line.toList with hnone | ⟨u, v, hline, hu⟩
    · rw [hends.items_append hnone]
      exact List.prefix_append _ _
    · obtain rfl : line = String.ofList u ++ "\"" ++ String.ofList v := by
        simp [← String.toList_inj, hline]
      rw [hends.items_append_close (by rwa [String.toList_ofList])]
      exact List.prefix_append _ _

/-- A name and an error in front of the string, which goes on over a line that looks like a command
and a comment; and a line that closes it and opens another one. -/
theorem items_append_of_openString_line :
    .unterminatedString ⟨⟨1, 4⟩, ⟨2, 1⟩⟩ ∈ (scan "x~ \"a\n").errors ∧
      (scan ("x~ \"a\n" ++ ":quit //é")).errors =
        [.unexpectedCharacter '~' ⟨⟨1, 2⟩, ⟨1, 3⟩⟩, .unterminatedString ⟨⟨1, 4⟩, ⟨2, 10⟩⟩] ∧
      [.token ⟨.identifier, "x", ⟨⟨1, 1⟩, ⟨1, 2⟩⟩⟩,
          .error (.unexpectedCharacter '~' ⟨⟨1, 2⟩, ⟨1, 3⟩⟩)] <+:
        items ("x~ \"a\n" ++ ":quit\"$\"") := by
  have hopen : .unterminatedString ⟨⟨1, 4⟩, ⟨2, 1⟩⟩ ∈ (scan "x~ \"a\n").errors := by
    decide +kernel
  obtain ⟨before, -, -, -, -, hitems, hlonger, -, hprefix⟩ :=
    items_append_of_openString "x~ \"a\n" hopen
  have hbefore : before = [.token ⟨.identifier, "x", ⟨⟨1, 1⟩, ⟨1, 2⟩⟩⟩,
      .error (.unexpectedCharacter '~' ⟨⟨1, 2⟩, ⟨1, 3⟩⟩)] := by
    refine List.append_cancel_right (hitems.symm.trans ?_)
    decide +kernel
  refine ⟨hopen, ?_, hbefore ▸ hprefix ":quit\"$\""⟩
  rw [(hlonger ":quit //é" (by decide)).2]
  decide +kernel

end LoxLex
