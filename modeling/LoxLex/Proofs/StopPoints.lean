import LoxLex.Proofs.ConsoleRuns
import LoxLex.Proofs.Segmentation

set_option relaxedAutoImplicit false
set_option autoImplicit false

/-!
# Where a session stops

A session knows nothing of the lines that it has not read. What it writes up to a prompt depends on
the lines in front of that prompt; a line that cannot be read ends it behind the prompt for this
line, and so does a command in place of the first line of a chunk. Whatever is behind such a line
is not read, and the lines that the session keeps then are not reported.

## Main definitions

* `LoxLex.upToPrompt` — what is written up to a prompt.
* `LoxLex.Stop` — the lines that end a session.
* `LoxLex.Session.run` — a session over the bytes of an input.

## Main results

* `LoxLex.splitLines_of_append` — the first lines of an input are those of their bytes alone.
* `LoxLex.Session.upToPrompt_transcript` — lines behind a prompt do not matter to what is in front
  of it.
* `LoxLex.Session.transcript_chunks` — what is written while lines are read.
* `LoxLex.exists_stop` — a session reads all lines or is ended by one.
* `LoxLex.session_stops` — sessions over all inputs.
-/

namespace LoxLex

/-! ## The first lines of an input -/

/-- Bytes up to a newline are a line. -/
lemma splitLines_newline {body : List UInt8} (h : 10 ∉ body) (rest : List UInt8) :
    splitLines (body ++ 10 :: rest) = (body ++ [10]) :: splitLines rest := by
  have hfirst : splitLines (10 :: rest) = [10] :: splitLines rest := by rw [splitLines, if_pos rfl]
  by_cases hne : body = []
  · rw [hne, List.nil_append, hfirst]
    rfl
  · rw [splitLines_append _ hne h, hfirst]

/-- Bytes without a newline are one line, if there are any. -/
lemma splitLines_of_notMem {bytes : List UInt8} (hne : bytes ≠ []) (h : 10 ∉ bytes) :
    splitLines bytes = [bytes] := by
  simpa [splitLines] using splitLines_append [] hne h

/-- The first line goes up to the first newline, or it is all there is. -/
lemma splitLines_cons {bytes line : List UInt8} {behind : List (List UInt8)}
    (h : splitLines bytes = line :: behind) :
    (∃ body rest, 10 ∉ body ∧ line = body ++ [10] ∧ bytes = body ++ 10 :: rest ∧
        behind = splitLines rest) ∨
      (bytes ≠ [] ∧ 10 ∉ bytes ∧ line = bytes ∧ behind = []) := by
  by_cases hnewline : 10 ∈ bytes
  · obtain ⟨body, rest, rfl, hbody⟩ := List.eq_append_cons_of_mem hnewline
    rw [splitLines_newline hbody] at h
    obtain ⟨rfl, rfl⟩ := List.cons.inj h
    exact .inl ⟨body, rest, hbody, rfl, rfl, rfl⟩
  · have hne : bytes ≠ [] := by
      rintro rfl
      simp [splitLines] at h
    rw [splitLines_of_notMem hne hnewline] at h
    obtain ⟨rfl, rfl⟩ := List.cons.inj h
    exact .inr ⟨hne, hnewline, rfl, rfl⟩

/-- The first lines of an input are those of their bytes, whatever comes behind them. The line
behind them is the only one of its bytes; if it has its newline, then it remains a line whatever
comes behind it.

**Proof sketch.** Induction on the first lines. A line with others behind it goes up to the first
newline of the input. -/
lemma splitLines_of_append {bytes line : List UInt8} {front behind : List (List UInt8)}
    (h : splitLines bytes = front ++ line :: behind) :
    (∀ more, splitLines (front.flatten ++ more) = front ++ splitLines more) ∧
      (10 ∈ line → ∀ more, splitLines (line ++ more) = line :: splitLines more) := by
  induction front generalizing bytes with
  | nil =>
    refine ⟨fun more => rfl, fun hnewline more => ?_⟩
    rcases splitLines_cons h with ⟨body, rest, hbody, rfl, -, -⟩ | ⟨-, hnone, rfl, -⟩
    · rw [List.append_assoc, List.singleton_append, splitLines_newline hbody]
    · exact absurd hnewline hnone
  | cons first front ih =>
    rcases splitLines_cons h with ⟨body, rest, hbody, rfl, -, hrest⟩ | ⟨-, -, -, hnil⟩
    · obtain ⟨hfront, hline⟩ := ih hrest.symm
      refine ⟨fun more => ?_, hline⟩
      rw [List.flatten_cons, List.append_assoc, List.append_assoc, List.singleton_append,
        splitLines_newline hbody, hfront, List.cons_append]
    · simp at hnil

/-! ## Prompts -/

/-- Whether an output asks for a line. -/
def Output.isPrompt (o : Output) : Bool := o == .out "> " || o == .out ". "

/-- What is written up to a prompt and with it, where the first prompt is the one of number zero;
all that is written if there are fewer prompts. -/
def upToPrompt : Nat → List Output → List Output
  | _, [] => []
  | k, o :: others =>
    if o.isPrompt then
      match k with
      | 0 => [o]
      | k + 1 => o :: upToPrompt k others
    else o :: upToPrompt k others

/-- What is no prompt does not count. -/
lemma upToPrompt_of_not {o : Output} (h : ¬ o.isPrompt = true) (k : Nat) (others : List Output) :
    upToPrompt k (o :: others) = o :: upToPrompt k others := by
  cases k <;> rw [upToPrompt, if_neg h]

/-- As many prompts are passed as there are in the first outputs. -/
lemma upToPrompt_append (front others : List Output) (k : Nat) :
    upToPrompt (front.countP Output.isPrompt + k) (front ++ others) =
      front ++ upToPrompt k others := by
  induction front with
  | nil => simp
  | cons o front ih =>
    by_cases ho : o.isPrompt
    · rw [List.countP_cons_of_pos ho, Nat.add_right_comm, List.cons_append, upToPrompt, if_pos ho]
      exact congrArg (o :: ·) ih
    · rw [List.countP_cons_of_neg ho, List.cons_append, upToPrompt_of_not ho, ih, List.cons_append]

/-- Nothing is passed where the first output is the prompt. -/
lemma upToPrompt_zero {o : Output} (h : o.isPrompt = true) (others : List Output) :
    upToPrompt 0 (o :: others) = [o] := by
  rw [upToPrompt, if_pos h]

/-- What is shown of a log is no prompt. -/
lemma countP_recordOutputs (settings : Settings) (source : String) :
    (recordOutputs settings source).countP Output.isPrompt = 0 := by
  rw [List.countP_eq_zero]
  intro o ho
  obtain ⟨record, -, rfl⟩ := List.mem_map.1 ho
  simp [Output.isPrompt]

/-- Nor is a line of a report, since it ends with a newline. -/
lemma countP_reportOutputs (settings : Settings) (source : String) :
    (reportOutputs settings source).countP Output.isPrompt = 0 := by
  rw [List.countP_eq_zero]
  intro o ho
  rcases List.mem_append.1 ho with ho | ho
  · obtain ⟨t, -, rfl⟩ := List.mem_map.1 ho
    have hlast : ∀ text : String, settings.format.text t ++ "\n" = text →
        text.toList.getLast? = some '\n' := by
      rintro _ rfl
      simp
    have hprompt : settings.format.text t ++ "\n" ≠ "> " ∧
        settings.format.text t ++ "\n" ≠ ". " :=
      ⟨fun h => by simpa using hlast _ h, fun h => by simpa using hlast _ h⟩
    simp [Output.isPrompt, hprompt]
  · obtain ⟨e, -, rfl⟩ := List.mem_map.1 ho
    simp [Output.isPrompt]

/-- What asks for a line behind others is a prompt. -/
lemma isPrompt_promptOutput (kept : List String) : (promptOutput kept).isPrompt = true := by
  rw [promptOutput]
  split <;> decide

/-- There is a prompt for each line that is read. -/
lemma countP_readOutputs (settings : Settings) (kept lines : List String) :
    (readOutputs settings kept lines).countP Output.isPrompt = lines.length := by
  induction lines generalizing kept with
  | nil => rfl
  | cons line lines ih =>
    rw [readOutputs, List.cons_append, List.countP_cons_of_pos (isPrompt_promptOutput kept),
      List.countP_append, ih, countP_recordOutputs, List.length_cons, Nat.zero_add]

/-- There is a prompt for each line of chunks. -/
lemma countP_chunkOutputs (settings : Settings) (chunks : List (List String)) :
    (chunks.flatMap (chunkOutputs settings)).countP Output.isPrompt = chunks.flatten.length := by
  induction chunks with
  | nil => rfl
  | cons chunk chunks ih =>
    rw [List.flatMap_cons, List.countP_append, ih, chunkOutputs, List.countP_append,
      countP_readOutputs, countP_reportOutputs, List.flatten_cons, List.length_append, Nat.add_zero]

/-- The lines of a chunk in front of its last one are kept until this one is read. -/
lemma Chunk.kept_front {front : List String} {line : String} (h : Chunk (front ++ [line])) :
    Kept front where
  opens part hpart hne := by
    refine h.shortest part (hpart.trans (List.prefix_append front [line])) hne ?_
    rintro rfl
    exact absurd hpart.length_le (by simp)
  first other hother := h.first other (by rw [List.head?_append, hother]; rfl)

namespace Session

/-- A prompt is one. -/
lemma isPrompt_prompt (s : Session) : (Output.out s.prompt).isPrompt = true := by
  rw [prompt]
  split <;> decide

/-- A session begins with its prompt, whatever the lines. -/
lemma exists_prompt_cons (s : Session) (typed : List (Except IoError String)) :
    ∃ others, (s.transcript typed).outputs = .out s.prompt :: others := by
  cases typed with
  | nil => exact ⟨_, rfl⟩
  | cons line typed =>
    cases line with
    | error cause => exact ⟨_, rfl⟩
    | ok line =>
      rw [transcript]
      cases s.feed line with
      | none => exact ⟨_, rfl⟩
      | some fed => exact ⟨_, rfl⟩

/-- A line does not lead to a prompt. -/
lemma countP_feed {s after : Session} {line : String} {outputs : List Output}
    (h : s.feed line = some (outputs, after)) : outputs.countP Output.isPrompt = 0 := by
  rw [feed] at h
  split at h
  · cases h
  · simp only at h
    split at h <;> obtain ⟨rfl, -⟩ := Prod.mk.inj (Option.some.inj h)
    · rw [logOutputs_scanLogged, countP_recordOutputs]
    · rw [logOutputs_scanLogged, scanLogged_value, scanOutputs_scan, List.countP_append,
        countP_recordOutputs, countP_reportOutputs]

/-- What is written up to a prompt depends only on the lines in front of it.

**Proof sketch.** Induction on the number of the prompt. There is one prompt for the first line,
and what this line leads to has none. -/
theorem upToPrompt_transcript (s : Session) (k : Nat) {typed typed' : List (Except IoError String)}
    (h : typed.take k = typed'.take k) :
    upToPrompt k (s.transcript typed).outputs = upToPrompt k (s.transcript typed').outputs := by
  induction k generalizing s typed typed' with
  | zero =>
    obtain ⟨others, hothers⟩ := s.exists_prompt_cons typed
    obtain ⟨others', hothers'⟩ := s.exists_prompt_cons typed'
    rw [hothers, hothers', upToPrompt_zero s.isPrompt_prompt, upToPrompt_zero s.isPrompt_prompt]
  | succ k ih =>
    cases typed with
    | nil =>
      obtain rfl : typed' = [] := by simpa using h.symm
      rfl
    | cons line typed =>
      cases typed' with
      | nil => simp at h
      | cons line' typed' =>
        rw [List.take_succ_cons, List.take_succ_cons] at h
        obtain ⟨rfl, htyped⟩ := List.cons.inj h
        cases line with
        | error cause => rfl
        | ok line =>
          rw [transcript, transcript]
          cases hfeed : s.feed line with
          | none => rfl
          | some fed =>
            obtain ⟨outputs, after⟩ := fed
            have hcount : (Output.out s.prompt :: outputs).countP Output.isPrompt = 1 := by
              rw [List.countP_cons_of_pos s.isPrompt_prompt, countP_feed hfeed]
            have hread : ∀ others, upToPrompt (k + 1) (.out s.prompt :: outputs ++ others) =
                .out s.prompt :: outputs ++ upToPrompt k others := by
              intro others
              rw [Nat.add_comm, ← hcount, upToPrompt_append]
            simp only [Transcript.prepend, hread, ih after htyped]

/-! ## Lines that are read -/

variable (settings : Settings) {kept : List String}

/-- Lines on top of kept ones are read without a report as long as a string is open. -/
lemma transcript_kept {lines : List String} (hkept : Kept kept) (h : Kept (kept ++ lines))
    (typed : List (Except IoError String)) :
    (keeping settings kept).transcript (lines.map .ok ++ typed) =
      ((keeping settings (kept ++ lines)).transcript typed).prepend
        (readOutputs settings kept lines) := by
  induction lines generalizing kept with
  | nil => simp [readOutputs, Transcript.prepend]
  | cons line lines ih =>
    have hnext : kept ++ line :: lines = (kept ++ [line]) ++ lines := by simp
    have hfirst : kept = [] → ¬ IsCommand line := by
      rintro rfl
      exact h.first line rfl
    have hopen : LeavesOpen (String.join (kept ++ [line])) :=
      h.opens _ ⟨lines, hnext.symm⟩ (by simp)
    have hfeed := feed_keeping settings hkept hfirst
    rw [if_pos ((wantsMore_iff _).2 hopen)] at hfeed
    rw [hnext] at h ⊢
    rw [List.map_cons, List.cons_append, transcript, hfeed, prompt_keeping hkept]
    simp only [ih (hkept.append_singleton hfirst hopen) h, readOutputs, Transcript.prepend,
      List.cons_append, List.append_assoc]

/-- The lines of a chunk are read and reported, and behind them nothing is kept. -/
lemma transcript_chunk {chunk : List String} (h : Chunk chunk)
    (typed : List (Except IoError String)) :
    (keeping settings []).transcript (chunk.map .ok ++ typed) =
      ((keeping settings []).transcript typed).prepend (chunkOutputs settings chunk) := by
  rcases List.eq_nil_or_concat chunk with rfl | ⟨front, line, rfl⟩
  · exact absurd rfl h.nonempty
  rw [List.concat_eq_append] at h ⊢
  have hfirst : front = [] → ¬ IsCommand line := by
    rintro rfl
    exact h.first line rfl
  have hfeed := feed_keeping settings h.kept_front hfirst
  rw [if_neg (mt (wantsMore_iff _).1 h.complete)] at hfeed
  have hfront := transcript_kept settings Kept.nil h.kept_front
  rw [List.map_append, List.append_assoc, hfront, List.nil_append, List.map_cons, List.map_nil,
    List.singleton_append, transcript, hfeed, prompt_keeping h.kept_front, chunkOutputs,
    readOutputs_concat]
  simp [Transcript.prepend]

/-- What is written while lines are read none of which ends the session: the chunks are reported,
and the lines behind them are kept. -/
lemma transcript_chunks {chunks : List (List String)} (hchunks : ∀ c ∈ chunks, Chunk c)
    (hkept : Kept kept) (typed : List (Except IoError String)) :
    (keeping settings []).transcript ((chunks.flatten ++ kept).map .ok ++ typed) =
      ((keeping settings kept).transcript typed).prepend
        (chunks.flatMap (chunkOutputs settings) ++ readOutputs settings [] kept) := by
  induction chunks with
  | nil => exact transcript_kept settings Kept.nil hkept typed
  | cons chunk chunks ih =>
    obtain ⟨hchunk, hothers⟩ := List.forall_mem_cons.1 hchunks
    rw [List.flatten_cons, List.append_assoc, List.map_append, List.append_assoc,
      transcript_chunk settings hchunk, ih hothers, List.flatMap_cons]
    simp only [Transcript.prepend, List.append_assoc]

end Session

/-! ## Lines that end a session -/

/-- A line that ends a session, given those that it keeps, and the error that ends it. A line that
is not the encoding of a text cannot be read; a command ends a session where no lines are kept. -/
inductive Stop (kept : List String) (line : List UInt8) : Option RunError → Prop where
  | unreadable (h : ∀ text, encodeText text ≠ line) :
    Stop kept line (some (.stream .invalidEncoding))
  | command {text : String} (h : encodeText text = line) (hkept : kept = [])
      (hcommand : IsCommand text) :
    Stop kept line none

/-- Lines of texts up to one that ends a session: chunks, further lines that are kept, and the line
that ends it, with the error that it leads to. -/
structure StopsAt (chunks : List (List String)) (kept : List String) (line : List UInt8)
    (failure : Option RunError) : Prop where
  /-- The chunks are reported. -/
  reported : ∀ chunk ∈ chunks, Chunk chunk
  /-- The lines behind them are not. -/
  waiting : Kept kept
  /-- The line behind these ends the session. -/
  stop : Stop kept line failure

/-- Lines can be read up to one that is not the encoding of a text, if there is one. -/
lemma exists_texts (lines : List (List UInt8)) :
    ∃ (texts : List String) (others : List (List UInt8)),
      lines = texts.map encodeText ++ others ∧
      ∀ line ∈ others.head?, ∀ text, encodeText text ≠ line := by
  induction lines with
  | nil => exact ⟨[], [], rfl, by simp⟩
  | cons line lines ih =>
    by_cases hline : ∃ text, encodeText text = line
    · obtain ⟨text, rfl⟩ := hline
      obtain ⟨texts, others, rfl, hothers⟩ := ih
      exact ⟨text :: texts, others, rfl, hothers⟩
    · refine ⟨[], line :: lines, rfl, ?_⟩
      simpa using hline

/-- Lines that encode texts are read as these. -/
lemma readLines_of_splitLines {input : List UInt8} {texts : List String}
    {others : List (List UInt8)} (h : splitLines input = texts.map encodeText ++ others) :
    readLines input = texts.map .ok ++ others.map decodeText := by
  rw [readLines, h, List.map_append, List.map_map]
  exact congrArg (· ++ _) (List.map_congr_left fun text _ => decodeText_encodeText text)

namespace Session

/-- A session over the bytes of an input. -/
def run (settings : Settings) (input : List UInt8) : Transcript :=
  (start settings).transcript (readLines input)

/-- What a session writes up to a prompt depends only on the lines in front of it. -/
lemma upToPrompt_run (settings : Settings) {k : Nat} {input input' : List UInt8}
    (h : (splitLines input).take k = (splitLines input').take k) :
    upToPrompt k (run settings input).outputs = upToPrompt k (run settings input').outputs := by
  refine upToPrompt_transcript (start settings) k ?_
  rw [readLines, readLines, ← List.map_take, ← List.map_take, h]

/-- A session that has read the first lines of an input has written what the session over their
bytes writes up to its last prompt. -/
lemma upToPrompt_run_front (settings : Settings) {read : List String} {input line : List UInt8}
    {behind : List (List UInt8)}
    (h : splitLines input = read.map encodeText ++ line :: behind) :
    upToPrompt read.length (run settings (encodeText (String.join read))).outputs =
      upToPrompt read.length (run settings input).outputs := by
  have hlines : splitLines (encodeText (String.join read)) = read.map encodeText := by
    rw [encodeText_join]
    simpa only [List.append_nil, splitLines] using (splitLines_of_append h).1 []
  refine upToPrompt_run settings ?_
  have hlength : (read.map encodeText).length = read.length := List.length_map encodeText
  rw [hlines, h, List.take_left' hlength, List.take_of_length_le hlength.le]

/-- A line that ends a session ends it behind its prompt, whatever comes behind this line. -/
lemma transcript_stop (settings : Settings) {kept : List String} {line : List UInt8}
    {failure : Option RunError} (hkept : Kept kept) (h : Stop kept line failure)
    (typed : List (Except IoError String)) :
    (keeping settings kept).transcript (decodeText line :: typed) =
      ⟨[promptOutput kept], failure⟩ := by
  have hprompt : .out (keeping settings kept).prompt = promptOutput kept := prompt_keeping hkept
  rw [← hprompt]
  cases h with
  | unreadable h =>
    rw [decodeText_of_unreadable h]
    rfl
  | @command text h hnone hcommand =>
    have hfeed : (keeping settings kept).feed text = none := by
      rw [feed, if_pos ((isQuit_keeping hkept text).2 ⟨hnone, hcommand⟩)]
    rw [← h, decodeText_encodeText, transcript, hfeed]

end Session

/-- What a session writes that is ended by a line, and with what error. -/
lemma StopsAt.run_eq {chunks : List (List String)} {kept : List String} {line : List UInt8}
    {failure : Option RunError} (h : StopsAt chunks kept line failure) (settings : Settings)
    {input : List UInt8} {behind : List (List UInt8)}
    (hsplit : splitLines input = (chunks.flatten ++ kept).map encodeText ++ line :: behind) :
    Session.run settings input =
      ⟨chunks.flatMap (chunkOutputs settings) ++ readOutputs settings [] kept ++
        [promptOutput kept], failure⟩ := by
  have hrun := Session.transcript_chunks settings h.reported h.waiting
    (decodeText line :: behind.map decodeText)
  rw [Session.transcript_stop settings h.waiting h.stop] at hrun
  rw [Session.run, readLines_of_splitLines hsplit]
  exact hrun

/-- A session is ended by a line, or it reads all of them; and the lines that it reads are cut into
chunks, with others that are kept behind them. -/
lemma exists_stop (settings : Settings) (input : List UInt8) :
    (∃ chunks kept line behind failure, StopsAt chunks kept line failure ∧
      splitLines input = (chunks.flatten ++ kept).map encodeText ++ line :: behind) ∨
    ∃ chunks kept, Segmentation.Valid ⟨chunks, .dry kept⟩ ∧
      splitLines input = (chunks.flatten ++ kept).map encodeText ∧
      Session.run settings input = ⟨Segmentation.outputs settings ⟨chunks, .dry kept⟩, none⟩ := by
  obtain ⟨texts, others, hsplit, hothers⟩ := exists_texts (splitLines input)
  obtain ⟨⟨chunks, ending⟩, hvalid, hlines, hrun⟩ :=
    Session.exists_segmentation settings Kept.nil texts
  rw [List.nil_append] at hlines
  cases ending with
  | command line unread =>
    refine .inl ⟨chunks, [], encodeText line, unread.map encodeText ++ others, none,
      ⟨hvalid.chunks, Kept.nil, .command rfl rfl hvalid.ending⟩, ?_⟩
    rw [hsplit, ← hlines]
    simp [Segmentation.lines, Ending.lines]
  | dry kept =>
    obtain rfl : chunks.flatten ++ kept = texts := hlines
    cases others with
    | cons line behind =>
      exact .inl ⟨chunks, kept, line, behind, _, ⟨hvalid.chunks, hvalid.ending,
        .unreadable (hothers line rfl)⟩, hsplit⟩
    | nil =>
      have hread := readLines_of_splitLines hsplit
      rw [List.map_nil, List.append_nil] at hread
      refine .inr ⟨chunks, kept, hvalid, by rw [hsplit, List.append_nil], ?_⟩
      rw [Session.run, hread]
      exact hrun

/-- **Sessions stop where they should, and know nothing of what is behind.** What a session writes
up to a prompt depends only on the lines in front of this prompt. A line that is not the encoding
of a text, or a command in place of the first line of a chunk, ends the session: the former with the
error for such a line, the latter without an error. What was written then is what the session over
the lines in front writes up to its prompt for a further line; these lines were read and the chunks
of them were reported, but not the lines that are kept. Whatever comes behind the line that ends the
session, it is the same session. Each input either has a line that ends the session, or all its
lines are read and cut into chunks. The program is this session wherever its arguments ask for one
and its standard output takes all texts.

**Proof sketch.** There is one prompt for each line that is read and no other text is a prompt. So
the outputs up to a prompt are counted by the lines in front of it. -/
theorem session_stops (settings : Settings) :
    (∀ k input input', (splitLines input).take k = (splitLines input').take k →
      upToPrompt k (Session.run settings input).outputs =
        upToPrompt k (Session.run settings input').outputs) ∧
    (∀ chunks kept line failure, StopsAt chunks kept line failure →
      ∀ input behind,
        splitLines input = (chunks.flatten ++ kept).map encodeText ++ line :: behind →
        let read := chunks.flatten ++ kept
        let bytes := encodeText (String.join read)
        let written := upToPrompt read.length (Session.run settings bytes).outputs
        Session.run settings input = ⟨written, failure⟩ ∧
        written = chunks.flatMap (chunkOutputs settings) ++ readOutputs settings [] kept ++
          [promptOutput kept] ∧
        (Session.run settings input).exitStatus = (if failure = none then 0 else 74) ∧
        (10 ∈ line → ∀ more,
          Session.run settings (bytes ++ line ++ more) = Session.run settings input)) ∧
    (∀ input,
      (∃ chunks kept line behind failure, StopsAt chunks kept line failure ∧
        splitLines input = (chunks.flatten ++ kept).map encodeText ++ line :: behind) ∨
      ∃ chunks kept, Segmentation.Valid ⟨chunks, .dry kept⟩ ∧
        splitLines input = (chunks.flatten ++ kept).map encodeText ∧
        Session.run settings input =
          ⟨Segmentation.outputs settings ⟨chunks, .dry kept⟩, none⟩) ∧
    ∀ (w : World) (arguments : List String),
      Request.ofArguments arguments w.environment = .ok (.session settings) →
      w.stdoutFailure = none →
      runProgram arguments w = .ofTranscript (Session.run settings w.input) := by
  refine ⟨fun k input input' h => Session.upToPrompt_run settings h, ?_, exists_stop settings, ?_⟩
  · intro chunks kept line failure hstops input behind hsplit read bytes written
    have hbytes : bytes = (read.map encodeText).flatten := encodeText_join read
    obtain ⟨hfront, hline⟩ := splitLines_of_append hsplit
    have hends := hstops.run_eq settings hsplit
    have hwritten : written = chunks.flatMap (chunkOutputs settings) ++
        readOutputs settings [] kept ++ [promptOutput kept] := by
      have hcount : (chunks.flatMap (chunkOutputs settings) ++
          readOutputs settings [] kept).countP Output.isPrompt = read.length := by
        rw [List.countP_append, countP_chunkOutputs, countP_readOutputs, List.length_append]
      calc written
          = upToPrompt read.length (Session.run settings input).outputs :=
            Session.upToPrompt_run_front settings hsplit
        _ = _ := by
          rw [hends, ← hcount]
          exact (upToPrompt_append _ _ 0).trans
            (congrArg _ (upToPrompt_zero (isPrompt_promptOutput kept) []))
    refine ⟨?_, hwritten, ?_, fun hnewline more => ?_⟩
    · rw [hends, hwritten]
    · rw [hends]
      cases hstops.stop <;> rfl
    · have hmore : splitLines (bytes ++ line ++ more) =
          read.map encodeText ++ line :: splitLines more := by
        rw [hbytes, List.append_assoc, hfront, hline hnewline]
      rw [hstops.run_eq settings hmore, hends]
  · intro w arguments hrequest htakes
    have hconsole : w.console = .ofFailure none := congrArg Console.ofFailure htakes
    rw [runProgram, runProgramOn, hrequest, hconsole]
    exact Console.outcome_of_takes (c := .ofFailure none) fun _ _ _ _ => rfl

/-- A string is open in which what looks like a command is kept. The byte `255` ends the session
then, and neither the string nor anything behind the line of the byte is reported. -/
theorem session_stops_at_wrong_byte :
    StopsAt [] ["\"a\n", ":quit\n"] [255, 10] (some (.stream .invalidEncoding)) ∧
      ∀ more : List UInt8,
        runProgram ["--log-level", "off", "repl"]
            ⟨⟨none, none⟩, fun _ => .error .noSuchFile,
              encodeText "\"a\n:quit\n" ++ [255, 10] ++ more, none⟩ =
          ⟨74, "> . . ", "I/O error: stream did not contain valid UTF-8\n"⟩ := by
  have hopen : LeavesOpen "\"a\n" ∧ LeavesOpen "\"a\n:quit\n" :=
    ⟨(wantsMore_iff _).1 (by decide +kernel), (wantsMore_iff _).1 (by decide +kernel)⟩
  have hfirst : ¬ IsCommand "\"a\n" := by
    unfold IsCommand
    decide +kernel
  have hkept : Kept ["\"a\n", ":quit\n"] :=
    (Kept.nil.append_singleton (fun _ => hfirst) hopen.1).append_singleton (by simp) hopen.2
  have hwrong : ∀ text, encodeText text ≠ [255, 10] := by
    intro text h
    have hdecode := decodeText_encodeText text
    rw [h] at hdecode
    cases hdecode
  have hstops : StopsAt [] ["\"a\n", ":quit\n"] [255, 10] (some (.stream .invalidEncoding)) :=
    ⟨by simp, hkept, .unreadable hwrong⟩
  obtain ⟨-, hends, -, hprogram⟩ := session_stops ⟨.canonical, .off⟩
  obtain ⟨hrun, hwritten, -, hmore⟩ := hends [] _ _ _ hstops
    (encodeText "\"a\n:quit\n" ++ [255, 10]) [] (by decide +kernel)
  refine ⟨hstops, fun more => (hprogram _ _ rfl rfl).trans ?_⟩
  have hsame : Session.run ⟨.canonical, .off⟩ (encodeText "\"a\n:quit\n" ++ [255, 10] ++ more) =
      ⟨[.out "> ", .out ". ", .out ". "], some (.stream .invalidEncoding)⟩ := by
    refine (hmore (by decide) more).trans ?_
    rw [hrun, hwritten]
    simp [readOutputs, promptOutput, recordOutputs, shownRecords, Verbosity.admits]
  rw [hsame]
  decide +kernel

end LoxLex
