import LoxLex.Proofs.Concatenation
import LoxLex.Proofs.Segmentation

set_option relaxedAutoImplicit false
set_option autoImplicit false

/-!
# Sessions and scans of whole texts

A text without errors has the same tokens whether it is scanned as a whole or typed into a session
line by line: every chunk of the session is such a text again, the tokens of the chunks put
together are those of the text, and neither an open string nor a command is left at the end.

## Main results

* `LoxLex.scan_append` — a text without errors behind a line that leaves no string open.
* `LoxLex.errors_ne_nil_of_isCommand` — a text that begins with a command has errors.
* `LoxLex.session_agrees_with_scan` — a session over the lines of a text without errors.
-/

namespace LoxLex

/-! ## Parts of a text without errors -/

/-- A text leaves a string open if the last of its pieces does and all others are sound. -/
lemma leavesOpen_of_splits {source : String} {front : List Piece} {body : List Char}
    (h : Splits source.toList (front ++ [⟨.openString, body⟩]))
    (hfront : ∀ p ∈ front, p.isSound = true) : LeavesOpen source := by
  have hnone : (place Location.start front).filterMap Item.error? = [] :=
    (errors_place_eq_nil_iff Location.start front).2 hfront
  rw [place, List.filterMap_append, List.append_eq_nil_iff] at hnone
  rw [LeavesOpen, scan_of_splits h, place_append]
  simp only [Scan.ofItems, List.filterMap_append, hnone.1, List.nil_append]
  exact ⟨_, rfl⟩

/-- A text without errors is scanned in two parts if the first one ends with a newline and leaves
no string open.

**Proof sketch.** If there were a string in the first part that is open before its newline, then the
newline would be part of it. The pieces in front of the string would be those of the whole text,
hence sound, and the string would be all that is wrong with the first part. So the newline stands
outside strings, and parts the pieces of the whole text. -/
theorem scan_append {x y : String} {a : List Char} (hx : x.toList = a ++ ['\n'])
    (hclosed : ¬ LeavesOpen x) (herrors : (scan (x ++ y)).errors = []) :
    (scan x).errors = [] ∧ (scan y).errors = [] ∧
      (scan (x ++ y)).contents = (scan x).contents ++ (scan y).contents := by
  obtain ⟨ps, hps⟩ := exists_splits a
  obtain ⟨qs, hqs⟩ := exists_splits y.toList
  have hxy : (x ++ y).toList = a ++ '\n' :: y.toList := by
    rw [String.toList_append, hx, List.append_assoc, List.singleton_append]
  by_cases hopen : ∃ p ∈ ps, p.role = .openString
  -- The open quote parts the pieces of `x` that are also pieces of the whole text.
  · obtain ⟨front, body, rfl, hbody⟩ := hps.openString_last hopen
    have ha : a = textOf front ++ '\x22' :: body := by simpa using hps.text_eq
    subst ha
    obtain ⟨others, hothers⟩ := exists_splits ('\x22' :: (body ++ '\n' :: y.toList))
    have hstring : Splits ('\x22' :: (body ++ ['\n']))
        [⟨.openString, '\x22' :: (body ++ ['\n'])⟩] := by
      have hnot : '\x22' ∉ body ++ ['\n'] := by simpa using hbody
      simpa using Splits.cons (.openString hnot) .nil
    have hfirst : Splits x.toList (front ++ [⟨.openString, '\x22' :: (body ++ ['\n'])⟩]) := by
      have := hps.change_behind (.of_ne_point (by decide) _ _) hstring
      rwa [hx, List.append_assoc, List.cons_append]
    have hwhole : Splits (x ++ y).toList (front ++ others) := by
      have := hps.change_behind (.of_ne_point (by decide) _ _) hothers
      rwa [hxy, List.append_assoc, List.cons_append]
    have hsound := (errors_eq_nil_iff hwhole).1 herrors
    have hfront : ∀ p ∈ front, p.isSound = true := fun p hp =>
      hsound p (List.mem_append_left others hp)
    exact absurd (leavesOpen_of_splits hfirst hfront) hclosed
  · have hnone : ∀ p ∈ ps, p.role ≠ .openString := fun p hp hrole => hopen ⟨p, hp, hrole⟩
    have hfirst : Splits x.toList (ps ++ [⟨.gap, ['\n']⟩]) := hx ▸ hps.append_newline hnone .nil
    have hwhole : Splits (x ++ y).toList (ps ++ ⟨.gap, ['\n']⟩ :: qs) :=
      hxy ▸ hps.append_newline hnone hqs
    rw [errors_eq_nil_iff hwhole, List.forall_mem_append, List.forall_mem_cons] at herrors
    obtain ⟨hps', hnewline, hqs'⟩ := herrors
    refine ⟨(errors_eq_nil_iff hfirst).2 ?_, (errors_eq_nil_iff hqs).2 hqs', ?_⟩
    · exact List.forall_mem_append.2 ⟨hps', by simpa using hnewline⟩
    · rw [contents_eq hwhole, contents_eq hfirst, contents_eq hqs, List.filterMap_append,
        List.filterMap_append, List.append_assoc]
      rfl

/-! ## Commands -/

/-- White space is a blank or has no use outside strings.

**Proof sketch.** Quotes, digits, letters and marks have code points between those of the space and
of the next white space behind it. -/
lemma isBlank_or_classOf_of_whiteSpace {ch : Char} (h : CharSet.whiteSpace.contains ch = true) :
    isBlank ch = true ∨ classOf ch = .stray := by
  have ranges : ∀ r ∈ CharSet.whiteSpace.ranges, r.2 ≤ 32 ∨ 133 ≤ r.1 := by decide
  have marks : ∀ op ∈ Operator.all,
      32 < (op.spelling.headD ' ').toNat ∧ (op.spelling.headD ' ').toNat < 133 := by decide
  obtain ⟨r, hr, hlow, hhigh⟩ := (CharSet.contains_iff _ _).1 h
  have code : ch.toNat ≤ 32 ∨ 133 ≤ ch.toNat := by
    rcases ranges r hr with hr | hr <;> omega
  have mark : Operator.ofChar? ch = none := by
    cases hop : Operator.ofChar? ch with
    | none => rfl
    | some op =>
      have hbounds := marks op op.mem_all
      rw [(Operator.ofChar?_eq_some_iff ch op).1 hop, List.headD_cons] at hbounds
      omega
  have quote : ¬ ch = '\x22' := by rw [eq_quote_iff]; omega
  have digit : ¬ isDigit ch = true := by rw [isDigit_iff]; omega
  have letter : ¬ isWordStart ch = true := by rw [isWordStart_iff]; omega
  by_cases hblank : isBlank ch = true
  · exact .inl hblank
  · right
    simp [classOf, hblank, quote, digit, letter, mark]

/-- White space and a character of no use behind it are errors, whatever comes next. -/
lemma exists_unsound {space : List Char} (h : ∀ ch ∈ space, CharSet.whiteSpace.contains ch = true)
    {stray : Char} (hstray : classOf stray = .stray) (rest : List Char) :
    ∃ ps, Splits (space ++ stray :: rest) ps ∧ ∃ p ∈ ps, p.isSound = false := by
  induction space with
  | nil =>
    obtain ⟨ps, hps⟩ := exists_splits rest
    exact ⟨_, .cons (.stray hstray) hps, _, List.mem_cons_self, rfl⟩
  | cons ch space ih =>
    obtain ⟨hch, hspace⟩ := List.forall_mem_cons.1 h
    obtain ⟨ps, hps, p, hp, hsound⟩ := ih hspace
    rcases isBlank_or_classOf_of_whiteSpace hch with hblank | hstray
    · exact ⟨_, .cons (.blank hblank) hps, p, List.mem_cons_of_mem _ hp, hsound⟩
    · exact ⟨_, .cons (.stray hstray) hps, p, List.mem_cons_of_mem _ hp, hsound⟩

/-- What is in front of a command in its line is white space. -/
lemma IsCommand.exists_space {line : String} (h : IsCommand line) :
    ∃ space rest, line.toList = space ++ ':' :: rest ∧
      ∀ ch ∈ space, CharSet.whiteSpace.contains ch = true := by
  rw [IsCommand, trimWhiteSpace] at h
  have hsplit := List.takeWhile_append_dropWhile (p := CharSet.whiteSpace.contains)
    (l := line.toList)
  generalize line.toList.dropWhile CharSet.whiteSpace.contains = behind at h hsplit
  have hprefix : ":quit".toList <+: behind := by
    rw [← h, ← List.reverse_suffix, List.reverse_reverse]
    exact List.dropWhile_suffix _
  obtain ⟨rest, rfl⟩ := hprefix
  exact ⟨_, "quit".toList ++ rest, hsplit.symm, fun ch => List.mem_takeWhile_imp⟩

/-- A text that begins with a command has errors. -/
lemma errors_ne_nil_of_isCommand {line : String} (h : IsCommand line) (others : String) :
    (scan (line ++ others)).errors ≠ [] := by
  obtain ⟨space, rest, hline, hspace⟩ := h.exists_space
  obtain ⟨ps, hps, p, hp, hsound⟩ :=
    exists_unsound hspace (show classOf ':' = .stray by decide) (rest ++ others.toList)
  have hwhole : Splits (line ++ others).toList ps := by
    rwa [String.toList_append, hline, List.append_assoc, List.cons_append]
  intro hnone
  rw [(errors_eq_nil_iff hwhole).1 hnone p hp] at hsound
  cases hsound

/-! ## A session over a text without errors -/

/-- Lines that are read without a report leave nothing on standard error. -/
lemma readOutputs_ne_err (settings : Settings) (kept lines : List String) :
    ∀ o ∈ readOutputs settings kept lines, ∀ text, o ≠ .err text := by
  induction lines generalizing kept with
  | nil => simp [readOutputs]
  | cons line lines ih =>
    intro o ho text
    simp only [readOutputs, List.cons_append, List.mem_cons, List.mem_append] at ho
    rcases ho with rfl | ho | ho
    · simp [promptOutput]
    · obtain ⟨record, -, rfl⟩ := List.mem_map.1 ho
      simp
    · exact ih _ o ho text

/-- Nor does a chunk without errors. -/
lemma chunkOutputs_ne_err (settings : Settings) {chunk : List String}
    (h : (scan (String.join chunk)).errors = []) :
    ∀ o ∈ chunkOutputs settings chunk, ∀ text, o ≠ .err text := by
  intro o ho text
  rw [chunkOutputs, reportOutputs, h, List.map_nil, List.append_nil] at ho
  rcases List.mem_append.1 ho with hread | htoken
  · exact readOutputs_ne_err settings [] chunk o hread text
  · obtain ⟨t, -, rfl⟩ := List.mem_map.1 htoken
    simp

/-- The text of a chunk ends with a newline if other lines follow. -/
lemma Chunk.exists_newline {chunk : List String} (h : Chunk chunk)
    (hends : ∀ line ∈ chunk, EndsLine line) :
    ∃ a, (String.join chunk).toList = a ++ ['\n'] := by
  rcases List.eq_nil_or_concat chunk with rfl | ⟨front, line, rfl⟩
  · exact absurd rfl h.nonempty
  rw [List.concat_eq_append] at hends ⊢
  obtain ⟨body, -, hbody⟩ := hends line (by simp)
  refine ⟨(String.join front).toList ++ body, ?_⟩
  simp [String.join_append, hbody]

/-- Lines that make up a text without errors are cut into chunks without errors. Nothing is left of
them, and the contents of the chunks are those of the text.

**Proof sketch.** Induction on the chunks. The first chunk ends with a newline, if it is not all
there is, and it leaves no string open; so it and the text behind it can be scanned one after the
other. What is left behind the last chunk has no errors; so it leaves no string open and does not
begin with a command. -/
theorem Segmentation.agrees {s : Segmentation} (hs : s.Valid)
    (hends : ∀ front behind, s.lines = front ++ behind → behind ≠ [] →
      ∀ line ∈ front, EndsLine line)
    (herrors : (scan (String.join s.lines)).errors = []) :
    s.ending = .dry [] ∧ (∀ chunk ∈ s.chunks, (scan (String.join chunk)).errors = []) ∧
      s.chunks.flatMap (fun chunk => (scan (String.join chunk)).contents) =
        (scan (String.join s.lines)).contents := by
  obtain ⟨chunks, ending⟩ := s
  induction chunks with
  | nil =>
    have hending : ending = .dry [] := by
      cases ending with
      | dry kept =>
        by_cases hne : kept = []
        · rw [hne]
        · obtain ⟨span, hspan⟩ := Kept.opens hs.ending kept (List.prefix_refl kept) hne
          rw [show Segmentation.lines ⟨[], .dry kept⟩ = kept from rfl, hspan] at herrors
          cases herrors
      | command line unread =>
        rw [show Segmentation.lines ⟨[], .command line unread⟩ = line :: unread from rfl,
          String.join_cons] at herrors
        exact absurd herrors (errors_ne_nil_of_isCommand hs.ending _)
    subst hending
    refine ⟨rfl, by simp, ?_⟩
    exact (contents_eq splits_empty).symm
  | cons chunk chunks ih =>
    obtain ⟨hchunk, hothers⟩ := List.forall_mem_cons.1 hs.chunks
    have hlines : Segmentation.lines ⟨chunk :: chunks, ending⟩ =
        chunk ++ Segmentation.lines ⟨chunks, ending⟩ := by
      simp [Segmentation.lines]
    rw [hlines, String.join_append] at herrors ⊢
    have hparts : (scan (String.join chunk)).errors = [] ∧
        (scan (String.join (Segmentation.lines ⟨chunks, ending⟩))).errors = [] ∧
        (scan (String.join chunk ++ String.join (Segmentation.lines ⟨chunks, ending⟩))).contents =
          (scan (String.join chunk)).contents ++
            (scan (String.join (Segmentation.lines ⟨chunks, ending⟩))).contents := by
      by_cases hlast : Segmentation.lines ⟨chunks, ending⟩ = []
      · rw [hlast, String.join_nil, String.append_empty] at herrors ⊢
        have hnone : (scan "").errors = [] := (errors_eq_nil_iff splits_empty).2 (by simp)
        refine ⟨herrors, hnone, ?_⟩
        rw [contents_eq splits_empty]
        simp
      · obtain ⟨a, ha⟩ := hchunk.exists_newline (hends chunk _ hlines hlast)
        exact scan_append ha hchunk.complete herrors
    have hends' : ∀ front behind, Segmentation.lines ⟨chunks, ending⟩ = front ++ behind →
        behind ≠ [] → ∀ line ∈ front, EndsLine line := by
      intro front behind h hne line hline
      refine hends (chunk ++ front) behind ?_ hne line (List.mem_append_right chunk hline)
      rw [hlines, h, List.append_assoc]
    obtain ⟨hfirst, hbehind, hsum⟩ := hparts
    obtain ⟨hending, hsound, hcontents⟩ := ih ⟨hothers, hs.ending⟩ hends' hbehind
    refine ⟨hending, List.forall_mem_cons.2 ⟨hfirst, hsound⟩, ?_⟩
    rw [hsum, List.flatMap_cons, hcontents]

/-- **A session finds the tokens of the whole text.** A session over the lines of a text without
errors succeeds. It cuts all lines into chunks, so that none is kept at the end and none was a
command; it reports these chunks, none of which has errors, and so writes no errors. The tokens of
the reports, without those for the ends of the chunks, say the same as the tokens of the whole text:
they have the same kinds with the same values, the same lexemes and the same lines in a dump.

**Proof sketch.** The session cuts the lines, as it does for every text. That the text has no errors
determines how they end and what the chunks contain. -/
theorem session_agrees_with_scan (settings : Settings) (source : String)
    (h : (scan source).errors = []) :
    ∃ chunks : List (List String),
      chunks.flatten = textLines source ∧ Segmentation.Valid ⟨chunks, .dry []⟩ ∧
      (Session.start settings).transcript (readLines (encodeText source)) =
        ⟨Segmentation.outputs settings ⟨chunks, .dry []⟩, none⟩ ∧
      (∀ o ∈ Segmentation.outputs settings ⟨chunks, .dry []⟩, ∀ text, o ≠ .err text) ∧
      (∀ chunk ∈ chunks, (scan (String.join chunk)).errors = [] ∧
        (scan (String.join chunk)).tokens.getLast?.map Token.kind = some .endOfInput) ∧
      chunks.flatMap (fun chunk => (scan (String.join chunk)).tokens.dropLast.map Token.content) =
        (scan source).tokens.dropLast.map Token.content := by
  obtain ⟨⟨chunks, ending⟩, hvalid, hlines, hrun⟩ :=
    Session.exists_segmentation settings Kept.nil (textLines source)
  rw [List.nil_append] at hlines
  have hjoin : String.join (Segmentation.lines ⟨chunks, ending⟩) = source := by
    rw [hlines, join_textLines]
  have hends : ∀ front behind, Segmentation.lines ⟨chunks, ending⟩ = front ++ behind →
      behind ≠ [] → ∀ line ∈ front, EndsLine line := fun front behind heq =>
    endsLine_of_textLines (hlines ▸ heq)
  obtain ⟨hending, hsound, hcontents⟩ := Segmentation.agrees hvalid hends (hjoin.symm ▸ h)
  obtain rfl : ending = .dry [] := hending
  rw [hjoin] at hcontents
  refine ⟨chunks, ?_, hvalid, ?_, ?_, fun chunk hchunk => ⟨hsound chunk hchunk, ?_⟩, hcontents⟩
  · simpa [Segmentation.lines, Ending.lines] using hlines
  · rw [readLines_encodeText]
    exact hrun
  · intro o ho text
    rcases List.mem_append.1 ho with hchunks | hend
    · obtain ⟨chunk, hchunk, ho⟩ := List.mem_flatMap.1 hchunks
      exact chunkOutputs_ne_err settings (hsound chunk hchunk) o ho text
    · rcases (by simpa [Ending.outputs, readOutputs] using hend : _ ∨ _) with rfl | rfl <;>
        simp [promptOutput]
  · obtain ⟨ps, hps⟩ := exists_splits (String.join chunk).toList
    rw [scan_of_splits hps, tokens_place]
    simp

/-- A string over three lines, with what looks like a command and a comment in it, and a last line
without its newline. -/
theorem session_over_lines_of_string :
    (scan "\"a\n:quit\n// b\";\nx").errors = [] ∧
      ∃ chunks : List (List String),
        chunks.flatten = textLines "\"a\n:quit\n// b\";\nx" ∧
        (Session.start ⟨.canonical, .off⟩).transcript
            (readLines (encodeText "\"a\n:quit\n// b\";\nx")) =
          ⟨Segmentation.outputs ⟨.canonical, .off⟩ ⟨chunks, .dry []⟩, none⟩ ∧
        chunks.flatMap (fun chunk => (scan (String.join chunk)).tokens.dropLast.map Token.content) =
          [(.literal (.string "a\n:quit\n// b"), "\"a\n:quit\n// b\"",
              "STRING \"a\n:quit\n// b\" a\n:quit\n// b"),
            (.operator .semicolon, ";", "SEMI ; null"),
            (.identifier, "x", "IDENTIFIER x null")] := by
  have h : (scan "\"a\n:quit\n// b\";\nx").errors = [] := by decide +kernel
  obtain ⟨chunks, hlines, -, hrun, -, -, hcontents⟩ :=
    session_agrees_with_scan ⟨.canonical, .off⟩ "\"a\n:quit\n// b\";\nx" h
  refine ⟨h, chunks, hlines, hrun, hcontents.trans ?_⟩
  decide +kernel

end LoxLex
