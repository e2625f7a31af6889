import LoxLex.Proofs.Placement
import LoxLex.Proofs.ScanTrace
import LoxLex.Proofs.TextLines
import LoxLex.Session

set_option relaxedAutoImplicit false
set_option autoImplicit false

/-!
# A session cuts its lines into chunks

A session reports the shortest runs of lines that do not leave a string open, one after the other.
How the lines of an input are cut into such chunks, and what is left of them at the end, can be
said without a session; there is exactly one way to cut them, and it determines all that the
session writes.

## Main definitions

* `LoxLex.LeavesOpen` — a text has nothing wrong but a string that is open at its end.
* `LoxLex.Kept`, `LoxLex.Chunk` — lines that a session keeps, and lines that it reports.
* `LoxLex.Segmentation` — chunks and how the session ends.
* `LoxLex.Segmentation.outputs` — what the session writes.

## Main results

* `LoxLex.Segmentation.eq_of_lines_eq` — lines are cut in one way only.
* `LoxLex.Session.exists_segmentation` — a session cuts its lines.
* `LoxLex.transcript_eq_segmentation_outputs` — a session over the lines of a text.
-/

namespace LoxLex

/-! ## Cutting lines into chunks -/

/-- The one thing that is wrong with a text is a string that is open at its end. -/
def LeavesOpen (text : String) : Prop := ∃ span, (scan text).errors = [.unterminatedString span]

/-- A scan asks for more text just if the text leaves a string open. -/
lemma wantsMore_iff (text : String) : (scan text).wantsMore = true ↔ LeavesOpen text :=
  LexError.listWantsMore_iff (scan text).errors

/-- The empty text leaves no string open. -/
lemma not_leavesOpen_empty : ¬ LeavesOpen "" := by
  rintro ⟨span, h⟩
  rw [scan, items_of_splits splits_empty] at h
  cases h

/-- A line that ends a session: it consists of the command, with white space around it. -/
def IsCommand (line : String) : Prop := trimWhiteSpace line.toList = ":quit".toList

/-- Lines that are kept: as soon as the first of them was read, a string has been open. -/
structure Kept (lines : List String) : Prop where
  /-- The lines that have been read leave a string open at any time. -/
  opens : ∀ front, front <+: lines → front ≠ [] → LeavesOpen (String.join front)
  /-- The first line does not end the session. -/
  first : ∀ line, lines.head? = some line → ¬ IsCommand line

/-- A chunk: the shortest run of lines, but at least one, that does not leave a string open. -/
structure Chunk (lines : List String) : Prop where
  /-- There is a line. -/
  nonempty : lines ≠ []
  /-- The lines do not leave a string open. -/
  complete : ¬ LeavesOpen (String.join lines)
  /-- Fewer of them do. -/
  shortest : ∀ front, front <+: lines → front ≠ [] → front ≠ lines →
    LeavesOpen (String.join front)
  /-- The first line does not end the session. -/
  first : ∀ line, lines.head? = some line → ¬ IsCommand line

/-- How the lines of a session end. -/
inductive Ending where
  /-- No lines are left to read, and those given are kept. -/
  | dry (kept : List String)
  /-- A command was read in place of the first line of a chunk, and others are not read. -/
  | command (line : String) (unread : List String)
deriving DecidableEq

/-- The lines cut into chunks. -/
structure Segmentation where
  /-- The chunks in order. -/
  chunks : List (List String)
  /-- What comes behind the last of them. -/
  ending : Ending
deriving DecidableEq

/-- The lines behind the last chunk. -/
def Ending.lines : Ending → List String
  | .dry kept => kept
  | .command line unread => line :: unread

/-- Lines that run dry are kept, and a command is one. -/
def Ending.Valid : Ending → Prop
  | .dry kept => Kept kept
  | .command line _ => IsCommand line

namespace Segmentation

/-- All lines. -/
def lines (s : Segmentation) : List String := s.chunks.flatten ++ s.ending.lines

/-- Each chunk is one, and the end is as it says. -/
structure Valid (s : Segmentation) : Prop where
  chunks : ∀ chunk ∈ s.chunks, Chunk chunk
  ending : s.ending.Valid

end Segmentation

/-! ## Lines are cut in one way only -/

/-- No lines are kept at the start. -/
lemma Kept.nil : Kept [] :=
  ⟨fun _ hfront hne => absurd (List.prefix_nil.1 hfront) hne, fun _ h => absurd h (by simp)⟩

/-- Kept lines have no chunk at their front. -/
lemma Kept.not_prefix {kept chunk : List String} (h : Kept kept) (hchunk : Chunk chunk) :
    ¬ chunk <+: kept := fun hprefix =>
  hchunk.complete (h.opens chunk hprefix hchunk.nonempty)

/-- Of two chunks at the front of the same lines neither is shorter. -/
lemma Chunk.eq_of_prefix {a b : List String} (ha : Chunk a) (hb : Chunk b) (h : a <+: b) :
    a = b := by
  by_cases hne : a = b
  · exact hne
  · exact absurd (hb.shortest a h ha.nonempty hne) ha.complete

/-- Lines that do not begin with a chunk end a session in one way only. -/
lemma Ending.eq_of_lines_eq {a b : Ending} (ha : a.Valid) (hb : b.Valid)
    (h : a.lines = b.lines) : a = b := by
  cases a with
  | dry kept =>
    cases b with
    | dry kept' => exact congrArg _ h
    | command line unread =>
      obtain rfl : kept = line :: unread := h
      exact absurd hb (ha.first line rfl)
  | command line unread =>
    cases b with
    | dry kept =>
      obtain rfl : line :: unread = kept := h
      exact absurd ha (hb.first line rfl)
    | command line' unread' =>
      obtain ⟨rfl, rfl⟩ := List.cons.inj h
      rfl

/-- What ends a session does not begin with a chunk. -/
lemma Ending.Valid.not_prefix {e : Ending} {chunk : List String} (he : e.Valid)
    (hchunk : Chunk chunk) : ¬ chunk <+: e.lines := by
  cases e with
  | dry kept => exact Kept.not_prefix he hchunk
  | command line unread =>
    intro hprefix
    obtain ⟨first, others, rfl⟩ := List.exists_cons_of_ne_nil hchunk.nonempty
    obtain ⟨rfl, -⟩ := List.cons_prefix_cons.1 hprefix
    exact hchunk.first first rfl he

/-- Two ways to cut the same lines have the same chunks and the same end.

**Proof sketch.** Induction on the chunks. Where both ways begin with a chunk, one of the two is
the front of the other, so they are the same. Where only one does, the other has no lines but those
that end the session, and these do not begin with a chunk. -/
private lemma chunks_eq_and_ending_eq {chunks chunks' : List (List String)} {e e' : Ending}
    (hchunks : ∀ c ∈ chunks, Chunk c) (hchunks' : ∀ c ∈ chunks', Chunk c) (he : e.Valid)
    (he' : e'.Valid) (h : chunks.flatten ++ e.lines = chunks'.flatten ++ e'.lines) :
    chunks = chunks' ∧ e = e' := by
  induction chunks generalizing chunks' with
  | nil =>
    cases chunks' with
    | nil => exact ⟨rfl, Ending.eq_of_lines_eq he he' h⟩
    | cons chunk' chunks' =>
      have hprefix : chunk' <+: e.lines :=
        ⟨chunks'.flatten ++ e'.lines, by simpa using h.symm⟩
      exact absurd hprefix (he.not_prefix (hchunks' chunk' List.mem_cons_self))
  | cons chunk chunks ih =>
    obtain ⟨hchunk, hothers⟩ := List.forall_mem_cons.1 hchunks
    cases chunks' with
    | nil =>
      have hprefix : chunk <+: e'.lines := ⟨chunks.flatten ++ e.lines, by simpa using h⟩
      exact absurd hprefix (he'.not_prefix hchunk)
    | cons chunk' chunks' =>
      obtain ⟨hchunk', hothers'⟩ := List.forall_mem_cons.1 hchunks'
      rw [List.flatten_cons, List.flatten_cons, List.append_assoc, List.append_assoc] at h
      obtain rfl : chunk = chunk' := by
        rcases List.prefix_or_prefix_of_prefix ⟨_, h⟩ ⟨_, rfl⟩ with hprefix | hprefix
        · exact hchunk.eq_of_prefix hchunk' hprefix
        · exact (hchunk'.eq_of_prefix hchunk hprefix).symm
      obtain ⟨rfl, rfl⟩ := ih hothers hothers' (List.append_cancel_left h)
      exact ⟨rfl, rfl⟩

/-- Lines are cut in one way only. -/
theorem Segmentation.eq_of_lines_eq {s t : Segmentation} (hs : s.Valid) (ht : t.Valid)
    (h : s.lines = t.lines) : s = t := by
  obtain ⟨chunks, ending⟩ := s
  obtain ⟨chunks', ending'⟩ := t
  obtain ⟨rfl, rfl⟩ := chunks_eq_and_ending_eq hs.chunks ht.chunks hs.ending ht.ending h
  rfl

/-! ## What a session writes -/

/-- The prompt for a line behind those that are kept. -/
def promptOutput (kept : List String) : Output := .out (if kept = [] then "> " else ". ")

/-- What is written to report a text: a line on standard output for each token, and then a line on
standard error for each error. -/
def reportOutputs (settings : Settings) (source : String) : List Output :=
  ((scan source).tokens.map fun t => .out (settings.format.text t ++ "\n")) ++
    (scan source).errors.map fun e => .err (e.message ++ "\n")

/-- A session writes this to report a text. -/
lemma scanOutputs_scan (settings : Settings) (source : String) :
    settings.scanOutputs (scan source) = reportOutputs settings source := rfl

/-- What is written while lines are read behind others: before each line its prompt, and behind it
what is shown of the log of its scan. -/
def readOutputs (settings : Settings) : List String → List String → List Output
  | _, [] => []
  | kept, line :: lines =>
    promptOutput kept :: recordOutputs settings (String.join (kept ++ [line])) ++
      readOutputs settings (kept ++ [line]) lines

/-- What is written for a chunk: its lines are read, and behind the last one follows the report of
all of them. -/
def chunkOutputs (settings : Settings) (chunk : List String) : List Output :=
  readOutputs settings [] chunk ++ reportOutputs settings (String.join chunk)

/-- What is written at the end. Where no lines are left to read, the line of the prompt is ended
behind the last one, and lines that are kept are reported as they are. -/
def Ending.outputs (settings : Settings) : Ending → List Output
  | .dry kept =>
    readOutputs settings [] kept ++ [promptOutput kept, .out "\n"] ++
      if kept = [] then []
      else recordOutputs settings (String.join kept) ++ reportOutputs settings (String.join kept)
  | .command _ _ => [promptOutput []]

/-- What is written for the chunks, one after the other, and at the end. -/
def Segmentation.outputs (settings : Settings) (s : Segmentation) : List Output :=
  s.chunks.flatMap (chunkOutputs settings) ++ s.ending.outputs settings

/-- Lines may be read in two parts. -/
lemma readOutputs_append (settings : Settings) (kept a b : List String) :
    readOutputs settings kept (a ++ b) =
      readOutputs settings kept a ++ readOutputs settings (kept ++ a) b := by
  induction a generalizing kept with
  | nil => simp [readOutputs]
  | cons line a ih => simp [readOutputs, ih, List.append_assoc]

/-- A further line is read on top of those that are kept. -/
lemma readOutputs_concat (settings : Settings) (kept : List String) (line : String) :
    readOutputs settings [] (kept ++ [line]) = readOutputs settings [] kept ++
      promptOutput kept :: recordOutputs settings (String.join (kept ++ [line])) := by
  simp [readOutputs_append, readOutputs]

/-! ## A session cuts its lines -/

/-- Kept lines with a further one begin with no command, if that one is none where it is the
first. -/
lemma Kept.first_append {kept : List String} {line : String} (h : Kept kept)
    (hfirst : kept = [] → ¬ IsCommand line) {other : String}
    (hother : (kept ++ [line]).head? = some other) : ¬ IsCommand other := by
  cases kept with
  | nil =>
    obtain rfl : line = other := by simpa using hother
    exact hfirst rfl
  | cons first kept => exact h.first other hother

/-- Kept lines with a further one are kept if they leave a string open. -/
lemma Kept.append_singleton {kept : List String} {line : String} (h : Kept kept)
    (hfirst : kept = [] → ¬ IsCommand line) (hopen : LeavesOpen (String.join (kept ++ [line]))) :
    Kept (kept ++ [line]) where
  opens front hfront hne := by
    rcases List.prefix_concat_iff.1 hfront with rfl | hfront
    · exact hopen
    · exact h.opens front hfront hne
  first _ := h.first_append hfirst

/-- Kept lines with a further one are a chunk if they do not leave a string open. -/
lemma Kept.chunk {kept : List String} {line : String} (h : Kept kept)
    (hfirst : kept = [] → ¬ IsCommand line)
    (hclosed : ¬ LeavesOpen (String.join (kept ++ [line]))) : Chunk (kept ++ [line]) where
  nonempty := by simp
  complete := hclosed
  shortest front hfront hne hshort := by
    rcases List.prefix_concat_iff.1 hfront with rfl | hfront
    · exact absurd rfl hshort
    · exact h.opens front hfront hne
  first _ := h.first_append hfirst

/-- Kept lines are not empty together. -/
lemma Kept.join_eq_empty_iff {kept : List String} (h : Kept kept) :
    String.join kept = "" ↔ kept = [] := by
  constructor
  · intro hempty
    by_cases hne : kept = []
    · exact hne
    · exact absurd (hempty ▸ h.opens kept (List.prefix_refl kept) hne) not_leavesOpen_empty
  · rintro rfl
    exact String.join_nil

namespace Session

/-- The session that keeps lines. -/
def keeping (settings : Settings) (kept : List String) : Session := ⟨settings, String.join kept⟩

variable {settings : Settings} {kept : List String}

/-- A session asks for the first line of a chunk where it keeps none. -/
lemma prompt_keeping (h : Kept kept) : .out (keeping settings kept).prompt = promptOutput kept := by
  simp only [prompt, keeping, promptOutput, h.join_eq_empty_iff]

/-- A line ends a session that keeps no lines if it is a command. -/
lemma isQuit_keeping (h : Kept kept) (line : String) :
    (keeping settings kept).isQuit line = true ↔ kept = [] ∧ IsCommand line := by
  simp [isQuit, keeping, h.join_eq_empty_iff, IsCommand]

/-- At the end of the input kept lines are reported as they are. -/
lemma close_keeping (h : Kept kept) :
    (keeping settings kept).close =
      .out "\n" ::
        if kept = [] then []
        else
          recordOutputs settings (String.join kept) ++ reportOutputs settings (String.join kept) := by
  simp only [close, keeping, h.join_eq_empty_iff, logOutputs_scanLogged, scanLogged_value,
    scanOutputs_scan]

/-- A line that does not end the session is kept if a string is open behind it; else it is reported
with those that were kept. -/
lemma feed_keeping (settings : Settings) (h : Kept kept) {line : String}
    (hfirst : kept = [] → ¬ IsCommand line) :
    (keeping settings kept).feed line =
      let text := String.join (kept ++ [line])
      if (scan text).wantsMore then
        some (recordOutputs settings text, keeping settings (kept ++ [line]))
      else
        some (recordOutputs settings text ++ reportOutputs settings text,
          keeping settings []) := by
  have hquit : ¬ (keeping settings kept).isQuit line = true := by
    rw [isQuit_keeping h]
    exact fun hquit => hfirst hquit.1 hquit.2
  have hinput : String.join (kept ++ [line]) = String.join kept ++ line := by
    rw [String.join_append, String.join_cons, String.join_nil, String.append_empty]
  rw [feed, if_neg hquit]
  simp only [keeping, hinput, logOutputs_scanLogged, scanLogged_value, scanOutputs_scan,
    String.join_nil]

/-- A session cuts its lines, and writes what belongs to the chunks and to the end.

**Proof sketch.** Induction on the lines that are still to be read. The lines that the session
keeps have left a string open ever since the first of them; a further line either leaves it open,
or completes a chunk behind which the session keeps nothing. -/
theorem exists_segmentation (settings : Settings) (h : Kept kept) (lines : List String) :
    ∃ s : Segmentation, s.Valid ∧ s.lines = kept ++ lines ∧
      ((keeping settings kept).transcript (lines.map .ok)).prepend (readOutputs settings [] kept) =
        ⟨s.outputs settings, none⟩ := by
  induction lines generalizing kept with
  | nil =>
    refine ⟨⟨[], .dry kept⟩, ⟨by simp, h⟩, by simp [Segmentation.lines, Ending.lines], ?_⟩
    simp [transcript, Transcript.prepend, Segmentation.outputs, Ending.outputs, prompt_keeping h,
      close_keeping h]
  | cons line lines ih =>
    by_cases hquit : kept = [] ∧ IsCommand line
    · obtain ⟨rfl, hcommand⟩ := hquit
      have hfeed : (keeping settings []).feed line = none := by
        rw [feed, if_pos ((isQuit_keeping h line).2 ⟨rfl, hcommand⟩)]
      refine ⟨⟨[], .command line lines⟩, ⟨by simp, hcommand⟩, rfl, ?_⟩
      rw [List.map_cons, transcript, hfeed, prompt_keeping h]
      rfl
    have hfirst : kept = [] → ¬ IsCommand line := fun hnil hcommand => hquit ⟨hnil, hcommand⟩
    have hfeed := feed_keeping settings h hfirst
    -- The line is read on top of the kept ones, whether or not it completes a chunk.
    have hread := readOutputs_concat settings kept line
    by_cases hopen : LeavesOpen (String.join (kept ++ [line]))
    · rw [if_pos ((wantsMore_iff _).2 hopen)] at hfeed
      obtain ⟨s, hvalid, hlines, hs⟩ := ih (h.append_singleton hfirst hopen)
      refine ⟨s, hvalid, by simpa using hlines, ?_⟩
      rw [← hs, List.map_cons, transcript, hfeed, prompt_keeping h, hread]
      simp [Transcript.prepend]
    · rw [if_neg (mt (wantsMore_iff _).1 hopen)] at hfeed
      obtain ⟨s, hvalid, hlines, hs⟩ := ih Kept.nil
      refine ⟨⟨(kept ++ [line]) :: s.chunks, s.ending⟩, ⟨?_, hvalid.ending⟩, ?_, ?_⟩
      · exact List.forall_mem_cons.2 ⟨h.chunk hfirst hopen, hvalid.chunks⟩
      · simpa [Segmentation.lines] using hlines
      · have houtputs : Segmentation.outputs settings ⟨(kept ++ [line]) :: s.chunks, s.ending⟩ =
            chunkOutputs settings (kept ++ [line]) ++ s.outputs settings := by
          simp [Segmentation.outputs]
        have hs : (keeping settings []).transcript (lines.map .ok) =
            ⟨s.outputs settings, none⟩ := hs
        rw [List.map_cons, transcript, hfeed, prompt_keeping h, houtputs, chunkOutputs, hread]
        simp [Transcript.prepend, hs]

end Session

/-- **A session reports the chunks of its lines.** There is exactly one way to cut the lines of a
text into chunks, each the shortest run that does not leave a string open, with either a command in
place of the first line of a chunk or no further chunk behind them. What the session writes are the
prompts for its lines, the report of each chunk directly behind its last line, and at the end of
the input the report of what is kept; and the session succeeds. -/
theorem transcript_eq_segmentation_outputs (settings : Settings) (source : String) :
    (∃! s : Segmentation, s.Valid ∧ s.lines = textLines source) ∧
      ∀ s : Segmentation, s.Valid → s.lines = textLines source →
        (Session.start settings).transcript (readLines (encodeText source)) =
          ⟨s.outputs settings, none⟩ := by
  obtain ⟨s, hvalid, hlines, hs⟩ := Session.exists_segmentation settings Kept.nil (textLines source)
  refine ⟨⟨s, ⟨hvalid, hlines⟩, fun t ht => ?_⟩, fun t ht htlines => ?_⟩
  · exact Segmentation.eq_of_lines_eq ht.1 hvalid (ht.2.trans hlines.symm)
  · obtain rfl := Segmentation.eq_of_lines_eq ht hvalid (htlines.trans hlines.symm)
    rw [readLines_encodeText]
    exact hs

end LoxLex
