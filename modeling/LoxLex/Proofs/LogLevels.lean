import LoxLex.Directory
import LoxLex.Proofs.ConsoleRuns
import LoxLex.Proofs.ScanTrace

set_option relaxedAutoImplicit false
set_option autoImplicit false

/-!
# The log is seen on standard error only

How much of the log is shown decides nothing, as long as standard error takes the records. A run
does the same things in the same order whatever the verbosity: it prints, and it scans. Each scan
leaves one block of records on standard error, between what was printed before the scan and what is
printed behind it, and the verbosity says which records of the block are shown. This remains so if
the input cannot be read up to its end, if standard output refuses a text, and if standard error
refuses a text that is no record.

A record that standard error refuses is another matter. The process crashes there, and nothing
behind the record is printed: with standard error full, a run that shows the log fails where one
that shows nothing of it succeeds.

## Main definitions

* `LoxLex.Event`, `LoxLex.Course` — what a run does, without regard to the verbosity.
* `LoxLex.RunInput`, `LoxLex.RunInput.scannedTexts` — what a run reads, and what it scans of that.
* `LoxLex.RunInput.outcomeOn`, `LoxLex.RunInput.outcome` — a run on a console, and with regard to
  standard output alone.

## Main results

* `LoxLex.RunInput.transcript_eq_course` — the course of a run does not depend on the verbosity.
* `LoxLex.Device.write_flatMap` — nor does what standard output refuses.
* `LoxLex.Course.exists_run_of_passesOver` — nor does what standard error refuses, if that is
  no record.
* `LoxLex.runProgram_eq_outcome` — a run of the program over an input.
* `LoxLex.verbosity_not_observed` — runs at all verbosities compared.
* `LoxLex.verbosity_observed_if_record_refused` — a run that crashes at one verbosity only.
-/

namespace LoxLex

/-! ## The course of a run -/

/-- One of the things that a run does. -/
inductive Event where
  /-- It prints a text to standard output. -/
  | out (text : String)
  /-- It prints a text to standard error. -/
  | err (text : String)
  /-- It scans a text, and makes records of that. -/
  | scan (source : String)
deriving DecidableEq

namespace Event

/-- What is written in an event: a scan leaves those of its records that are shown. -/
def outputs (v : Verbosity) : Event → List Output
  | out text => [.out text]
  | err text => [.err text]
  | scan source => (shownRecords v source).map .log

/-- The text on standard output. -/
def stdout : Event → String
  | out text => text
  | err _ | scan _ => ""

/-- The text that is printed to standard error, without regard to the log. -/
def report : Event → String
  | err text => text
  | out _ | scan _ => ""

/-- The text on standard error. That of a scan is a block of lines, one for each record shown. -/
def stderr (v : Verbosity) : Event → String
  | out _ => ""
  | err text => text
  | scan source => String.join ((shownRecords v source).map fun r => r.line ++ "\n")

/-- The text that is scanned. -/
def scanned? : Event → Option String
  | scan source => some source
  | out _ | err _ => none

/-- The report of a scan: its tokens, then its errors. -/
def ofScan (format : TokenFormat) (r : Scan) : List Event :=
  r.tokens.map (fun t => .out (format.text t ++ "\n")) ++
    r.errors.map fun e => .err (e.message ++ "\n")

end Event

/-- All that a run does, and the error that ends it. -/
structure Course where
  /-- What is done, the earliest first. -/
  events : List Event
  /-- The error that ends the run, none if it succeeds. -/
  failure : Option RunError
deriving DecidableEq

namespace Course

/-- All that is written. -/
def transcript (v : Verbosity) (c : Course) : Transcript :=
  ⟨c.events.flatMap (Event.outputs v), c.failure⟩

/-- The texts that are scanned, the earliest first. -/
def scans (c : Course) : List String := c.events.filterMap Event.scanned?

/-- Puts events in front of a course. -/
def prepend (events : List Event) (c : Course) : Course := { c with events := events ++ c.events }

/-- What is done first is written first. -/
lemma transcript_prepend (events : List Event) (c : Course) (v : Verbosity) :
    (c.prepend events).transcript v =
      (c.transcript v).prepend (events.flatMap (Event.outputs v)) := by
  simp [prepend, transcript, Transcript.prepend]

/-- What is scanned first comes first. -/
lemma scans_prepend (events : List Event) (c : Course) :
    (c.prepend events).scans = events.filterMap Event.scanned? ++ c.scans :=
  List.filterMap_append

/-- The report of the error that ends the run. -/
def closing (c : Course) : String :=
  match c.failure with
  | some error => error.message ++ "\n"
  | none => ""

/-- The status that the process exits with. -/
def exitStatus (c : Course) : UInt8 :=
  match c.failure with
  | some error => error.exitStatus
  | none => 0

end Course

/-! ## What is seen of a course -/

section Streams

variable (v : Verbosity)

/-- Records are written to standard error alone. -/
private lemma join_stdout_log (records : List LogRecord) :
    String.join ((records.map Output.log).map Output.stdout) = "" := by
  induction records with
  | nil => rfl
  | cons r records ih => rw [List.map_cons, List.map_cons, String.join_cons, ih]; rfl

/-- The text of an event on standard output does not depend on the verbosity. -/
private lemma Event.join_stdout (e : Event) :
    String.join ((e.outputs v).map Output.stdout) = e.stdout := by
  cases e with
  | out text | err text => simp [outputs, Output.stdout, stdout]
  | scan source => exact join_stdout_log _

/-- The text of an event on standard error. -/
private lemma Event.join_stderr (e : Event) :
    String.join ((e.outputs v).map Output.stderr) = e.stderr v := by
  cases e with
  | out text | err text => simp [outputs, Output.stderr, stderr]
  | scan source => simp [outputs, stderr, Output.stderr, Function.comp_def]

/-- The texts of a list of events are those of the events, one after the other. -/
private lemma join_flatMap {stream : Output → String} {text : Event → String}
    (h : ∀ e : Event, String.join ((e.outputs v).map stream) = text e) (events : List Event) :
    String.join ((events.flatMap (Event.outputs v)).map stream) =
      String.join (events.map text) := by
  induction events with
  | nil => rfl
  | cons e events ih =>
    rw [List.flatMap_cons, List.map_append, String.join_append, h, ih, List.map_cons,
      String.join_cons]

/-- What is seen of a course. -/
lemma Course.ofTranscript_eq (c : Course) :
    Outcome.ofTranscript (c.transcript v) =
      ⟨c.exitStatus, String.join (c.events.map Event.stdout),
        String.join (c.events.map (Event.stderr v)) ++ c.closing⟩ := by
  rw [Outcome.ofTranscript, Transcript.stdout, Transcript.stderr, Transcript.exitStatus, transcript,
    join_flatMap v (Event.join_stdout v), join_flatMap v (Event.join_stderr v)]
  rfl

variable {v}

/-- If no record is shown, standard error has the reports alone. -/
lemma Event.stderr_eq_report (h : v.admits .debug = false) (e : Event) :
    e.stderr v = e.report := by
  cases e with
  | out text | err text => rfl
  | scan source => simp [stderr, report, shownRecords_eq_nil h]

end Streams

/-! ## The course of a session and of a run over a file -/

/-- What a run reads. A line that cannot be read is the last one that counts. -/
inductive RunInput where
  /-- The contents of a file. -/
  | file (contents : Except IoError String)
  /-- The lines that are typed at the prompt. -/
  | lines (typed : List (Except IoError String))

namespace Session

/-- A line ends a session that keeps `pending`: no string is open, and the line is the command. -/
abbrev Ends (pending line : String) : Prop :=
  pending = "" ∧ trimWhiteSpace line.toList = ":quit".toList

/-- What a session keeps behind a line: all that was typed since a string was opened. -/
def keep (pending line : String) : String :=
  if (scan (pending ++ line)).wantsMore then pending ++ line else ""

/-- The texts that a session scans if it keeps `pending`: each line that it reads, behind the lines
that are kept, unless the line ends the session; and at the end of the input what is kept then. -/
def scannedTexts : String → List (Except IoError String) → List String
  | pending, [] => if pending = "" then [] else [pending]
  | _, .error _ :: _ => []
  | pending, .ok line :: typed =>
    if Ends pending line then [] else (pending ++ line) :: scannedTexts (keep pending line) typed

/-- A session asks for a line. -/
def promptEvent (pending : String) : Event := .out (if pending = "" then "> " else ". ")

/-- What a line leads to: it is scanned, and if no string is open the scan is reported. -/
def lineEvents (format : TokenFormat) (pending line : String) : List Event :=
  .scan (pending ++ line) ::
    if (scan (pending ++ line)).wantsMore then [] else Event.ofScan format (scan (pending ++ line))

/-- What the end of the input leads to: what is kept is scanned and reported. -/
def closeEvents (format : TokenFormat) (pending : String) : List Event :=
  .out "\n" :: if pending = "" then [] else .scan pending :: Event.ofScan format (scan pending)

/-- The course of a session that keeps `pending`. -/
def course (format : TokenFormat) : String → List (Except IoError String) → Course
  | pending, [] => ⟨promptEvent pending :: closeEvents format pending, none⟩
  | pending, .error cause :: _ => ⟨[promptEvent pending], some (.stream cause)⟩
  | pending, .ok line :: typed =>
    if Ends pending line then ⟨[promptEvent pending], none⟩
    else
      (course format (keep pending line) typed).prepend
        (promptEvent pending :: lineEvents format pending line)

end Session

namespace RunInput

/-- The run over an input. -/
def transcript (settings : Settings) : RunInput → Transcript
  | file contents => fileTranscript settings contents
  | lines typed => (Session.start settings).transcript typed

/-- The texts that are scanned: a file as a whole, a session line by line. -/
def scannedTexts : RunInput → List String
  | file (.error _) => []
  | file (.ok source) => [source]
  | lines typed => Session.scannedTexts "" typed

/-- The course of the run over an input. The errors of a file are not printed, but end the run. -/
def course (format : TokenFormat) : RunInput → Course
  | file (.error cause) => ⟨[], some (.file cause)⟩
  | file (.ok source) =>
    ⟨.scan source :: Event.ofScan format { scan source with errors := [] },
      if (scan source).hasErrors then some (.lexing (scan source).errors) else none⟩
  | lines typed => Session.course format "" typed

end RunInput

/-- The log of a scan that is shown is what a scan writes. -/
private lemma logOutputs_scan (format : TokenFormat) (v : Verbosity) (source : String) :
    Settings.logOutputs ⟨format, v⟩ (scanLogged source).records =
      Event.outputs v (.scan source) :=
  logOutputs_scanLogged ⟨format, v⟩ source

/-- The report of a scan is written in the same form whatever the verbosity. -/
private lemma flatMap_ofScan (format : TokenFormat) (v : Verbosity) (r : Scan) :
    (Event.ofScan format r).flatMap (Event.outputs v) = Settings.scanOutputs ⟨format, v⟩ r := by
  simp only [Event.ofScan, List.flatMap_append, List.flatMap_map, Event.outputs,
    ← List.map_eq_flatMap]
  rfl

/-- A report has no scans in it. -/
private lemma filterMap_ofScan (format : TokenFormat) (r : Scan) :
    (Event.ofScan format r).filterMap Event.scanned? = [] := by
  simp [Event.ofScan, List.filterMap_map, Function.comp_def, Event.scanned?]

namespace Session

variable (format : TokenFormat) (v : Verbosity) (pending : String)

/-- What a line leads to, and what is kept behind it, does not depend on the verbosity. -/
lemma feed_eq (line : String) :
    feed ⟨⟨format, v⟩, pending⟩ line =
      if Ends pending line then none
      else some ((lineEvents format pending line).flatMap (Event.outputs v),
        ⟨⟨format, v⟩, keep pending line⟩) := by
  have hquit : isQuit ⟨⟨format, v⟩, pending⟩ line = decide (Ends pending line) := by
    simp [isQuit, Ends, Bool.decide_and, beq_eq_decide]
  rw [feed, hquit]
  by_cases hends : Ends pending line
  · simp [hends]
  · simp only [hends, decide_false, Bool.false_eq_true, if_false, scanLogged_value, lineEvents,
      keep, List.flatMap_cons]
    cases hmore : (scan (pending ++ line)).wantsMore with
    | true => simp [logOutputs_scan]
    | false => simp [logOutputs_scan, flatMap_ofScan]

/-- Nor does what the end of the input leads to. -/
lemma close_eq :
    close ⟨⟨format, v⟩, pending⟩ = (closeEvents format pending).flatMap (Event.outputs v) := by
  rw [close, closeEvents, List.flatMap_cons]
  split
  · rfl
  · simp only [List.flatMap_cons, flatMap_ofScan, scanLogged_value, logOutputs_scan]
    rfl

/-- A session takes its course.

**Proof sketch.** Induction on the lines, with what is kept general. -/
theorem transcript_eq_course (typed : List (Except IoError String)) :
    transcript ⟨⟨format, v⟩, pending⟩ typed = (course format pending typed).transcript v := by
  induction typed generalizing pending with
  | nil => rw [transcript, close_eq]; rfl
  | cons line typed ih =>
    cases line with
    | error cause => rfl
    | ok line =>
      rw [transcript, feed_eq, course]
      by_cases hends : Ends pending line
      · simp only [if_pos hends]
        rfl
      · simp only [if_neg hends, ih, Course.transcript_prepend]
        rfl

/-- The scans in the course of a session are those of its lines. -/
lemma scans_course (typed : List (Except IoError String)) :
    (course format pending typed).scans = scannedTexts pending typed := by
  induction typed generalizing pending with
  | nil =>
    by_cases hnone : pending = "" <;>
      simp [course, Course.scans, closeEvents, scannedTexts, promptEvent, Event.scanned?, hnone,
        List.filterMap_cons, filterMap_ofScan]
  | cons line typed ih =>
    cases line with
    | error cause => rfl
    | ok line =>
      rw [course, scannedTexts]
      by_cases hends : Ends pending line
      · simp only [if_pos hends]
        rfl
      · have hline : (lineEvents format pending line).filterMap Event.scanned? =
            [pending ++ line] := by
          rw [lineEvents]
          split <;> simp [Event.scanned?, filterMap_ofScan]
        rw [if_neg hends, if_neg hends, Course.scans_prepend, ih, List.filterMap_cons, hline]
        rfl

end Session

namespace RunInput

/-- A run takes its course, whatever the verbosity. -/
theorem transcript_eq_course (format : TokenFormat) (v : Verbosity) (input : RunInput) :
    input.transcript ⟨format, v⟩ = (input.course format).transcript v := by
  cases input with
  | lines typed => exact Session.transcript_eq_course format v "" typed
  | file contents =>
    cases contents with
    | error cause => rfl
    | ok source =>
      simp only [transcript, fileTranscript, course, Course.transcript, List.flatMap_cons,
        flatMap_ofScan, scanLogged_value, Settings.scanOutputs, List.map_nil, List.append_nil,
        logOutputs_scan]

/-- The scans in the course of a run are those of its input. -/
lemma scans_course (format : TokenFormat) (input : RunInput) :
    (input.course format).scans = input.scannedTexts := by
  cases input with
  | lines typed => exact Session.scans_course format "" typed
  | file contents =>
    cases contents with
    | error cause => rfl
    | ok source => simp [course, Course.scans, scannedTexts, Event.scanned?, filterMap_ofScan]

end RunInput

/-! ## Streams that refuse a text -/

namespace Device

/-- A device refuses the same text of the same events whatever the verbosity.

**Proof sketch.** Induction on the events. A device sees texts for standard output only, and no
record is such a text. -/
theorem write_flatMap (d : Device) (taken : String) (events : List Event) :
    ∃ (done : List Event) (failure : Option IoError),
      (∀ v, d.write taken (events.flatMap (Event.outputs v)) =
        (done.flatMap (Event.outputs v), failure)) ∧
      done.filterMap Event.scanned? <+: events.filterMap Event.scanned? := by
  induction events generalizing taken with
  | nil => exact ⟨[], none, fun _ => rfl, List.prefix_refl _⟩
  | cons e events ih =>
    cases e with
    | out text =>
      by_cases hempty : text = ""
      · obtain ⟨done, failure, hdone, hscans⟩ := ih taken
        refine ⟨.out text :: done, failure, fun v => ?_, hscans⟩
        simp [Event.outputs, write, Output.writesOut, Output.stdout, hempty, hdone v]
      · cases hrefused : d taken text with
        | some refusal =>
          refine ⟨[.out refusal.1], some refusal.2, fun v => ?_, List.nil_prefix⟩
          simp [Event.outputs, write, Output.writesOut, Output.stdout, hempty, hrefused]
        | none =>
          obtain ⟨done, failure, hdone, hscans⟩ := ih (taken ++ text)
          refine ⟨.out text :: done, failure, fun v => ?_, hscans⟩
          simp [Event.outputs, write, Output.writesOut, Output.stdout, hempty, hrefused, hdone v]
    | err text =>
      obtain ⟨done, failure, hdone, hscans⟩ := ih taken
      refine ⟨.err text :: done, failure, fun v => ?_, hscans⟩
      simp [Event.outputs, write, Output.writesOut, Output.stdout, hdone v]
    | scan source =>
      obtain ⟨done, failure, hdone, hscans⟩ := ih taken
      refine ⟨.scan source :: done, failure, fun v => ?_, ?_⟩
      · have hsilent : ∀ o ∈ Event.outputs v (.scan source), o.writesOut = false := by
          intro o ho
          obtain ⟨record, -, rfl⟩ := List.mem_map.1 ho
          rfl
        rw [List.flatMap_cons, write_append_of_silent d taken hsilent, hdone v, List.flatMap_cons]
      · exact List.cons_prefix_cons.2 ⟨rfl, hscans⟩

end Device

/-- A run on a device takes a course that does not depend on the verbosity. -/
lemma Course.exists_onto (d : Device) (c : Course) :
    ∃ done : Course, (∀ v, (c.transcript v).onto d = done.transcript v) ∧ done.scans <+: c.scans ∧
      ((∀ taken text, d taken text = none) → done = c) := by
  by_cases htakes : ∀ taken text, d taken text = none
  · refine ⟨c, fun v => ?_, List.prefix_refl _, fun _ => rfl⟩
    rw [Transcript.onto, Device.write_of_takes htakes]
  · obtain ⟨done, failure, hdone, hscans⟩ := Device.write_flatMap d "" c.events
    refine ⟨⟨done, failure.elim c.failure fun cause => some (.stream cause)⟩, fun v => ?_, hscans,
      fun h => absurd h htakes⟩
    rw [Transcript.onto, transcript, hdone v]
    cases failure <;> rfl

/-- The records that standard error passes over do not change what it takes otherwise.

**Proof sketch.** Induction on the events. Standard error does not tell apart what it took with the
records and without them, so it refuses the same one of the other texts, if any. -/
theorem Course.exists_run_of_passesOver (c : Console) (failure : Option RunError)
    (events : List Event) (printed base : String) :
    ∃ (exit : UInt8) (rest : String) (done : List Event), done <+: events ∧
      ∀ v reported, c.err.Alike reported base →
        (∀ source ∈ events.filterMap Event.scanned?, ∀ r ∈ shownRecords v source,
          c.err.PassesOver (r.line ++ "\n")) →
        c.unblocked.run failure printed reported (events.flatMap (Event.outputs v)) =
          ⟨exit, printed ++ String.join (done.map Event.stdout),
            reported ++ String.join (done.map (Event.stderr v)) ++ rest⟩ := by
  induction events generalizing printed base with
  | nil =>
    obtain ⟨exit, rest, hrest⟩ := c.unblocked.exists_conclude printed base failure
    refine ⟨exit, rest, [], List.prefix_refl _, fun v reported halike _ => ?_⟩
    rw [List.flatMap_nil, Console.run, hrest reported halike]
    simp
  | cons e events ih =>
    cases e with
    | out text =>
      obtain ⟨exit, rest, done, hdone, hrun⟩ := ih (printed ++ text) base
      refine ⟨exit, rest, .out text :: done, List.cons_prefix_cons.2 ⟨rfl, hdone⟩,
        fun v reported halike hpass => ?_⟩
      rw [List.flatMap_cons, Event.outputs, List.singleton_append, Console.run_unblocked_out]
      simpa [Event.stdout, Event.stderr, String.append_assoc] using hrun v reported halike hpass
    | err text =>
      cases hrefused : c.err.refusal? base text with
      | some refusal =>
        obtain ⟨exit, rest, hrest⟩ := c.unblocked.exists_interrupt printed (base ++ refusal.1)
          ((Output.err text).interruption refusal.2)
        refine ⟨exit, refusal.1 ++ rest, [], List.nil_prefix, fun v reported halike _ => ?_⟩
        rw [List.flatMap_cons, Event.outputs, List.singleton_append, Console.run_unblocked_cons,
          Output.stderr, halike.refusal?_eq, hrefused]
        simpa [String.append_assoc] using hrest _ (halike.append refusal.1)
      | none =>
        obtain ⟨exit, rest, done, hdone, hrun⟩ := ih printed (base ++ text)
        refine ⟨exit, rest, .err text :: done, List.cons_prefix_cons.2 ⟨rfl, hdone⟩,
          fun v reported halike hpass => ?_⟩
        rw [List.flatMap_cons, Event.outputs, List.singleton_append, Console.run_unblocked_cons,
          Output.stderr, halike.refusal?_eq, hrefused]
        simpa [Output.stdout, Event.stdout, Event.stderr, String.append_assoc] using
          hrun v (reported ++ text) (halike.append text) hpass
    | scan source =>
      obtain ⟨exit, rest, done, hdone, hrun⟩ := ih printed base
      refine ⟨exit, rest, .scan source :: done, List.cons_prefix_cons.2 ⟨rfl, hdone⟩,
        fun v reported halike hpass => ?_⟩
      obtain ⟨hblock, hothers⟩ := List.forall_mem_cons.1 hpass
      obtain ⟨hlogs, hbehind⟩ := Console.run_logs hblock halike failure printed
        (events.flatMap (Event.outputs v))
      rw [List.flatMap_cons, Event.outputs, hlogs]
      simpa [Event.stdout, Event.stderr, String.append_assoc] using hrun v _ hbehind hothers

/-! ## Runs at all verbosities -/

/-- What is seen of the run over an input on a console. -/
def RunInput.outcomeOn (c : Console) (settings : Settings) (input : RunInput) : Outcome :=
  c.outcome (input.transcript settings)

/-- What is seen of the run over an input if standard error takes every text and standard output is
a device. -/
def RunInput.outcome (d : Device) (settings : Settings) (input : RunInput) : Outcome :=
  .ofTranscript ((input.transcript settings).onto d)

/-- What a request for the tokens of a file, or for a session, reads in a world, and how it
prints. -/
def Request.reads (w : World) : Request → Option (RunInput × Settings)
  | .tokens path settings => some (.file (w.readFile path), settings)
  | .session settings => some (.lines (readLines w.input), settings)
  | .refused _ | .version | .help => none

/-- A run of the program over an input, on any console. -/
lemma runProgramOn_eq_outcomeOn {w : World} {arguments : List String} {request : Request}
    {input : RunInput} {settings : Settings} (c : Console)
    (hrequest : Request.ofArguments arguments w.environment = .ok request)
    (hreads : request.reads w = some (input, settings)) :
    runProgramOn c arguments w = input.outcomeOn c settings := by
  rw [runProgramOn, hrequest]
  cases request <;>
    simp only [Request.reads, Option.some.injEq, Prod.mk.injEq, reduceCtorEq] at hreads
  all_goals
    obtain ⟨rfl, rfl⟩ := hreads
    rfl

/-- Standard error need not be looked at if it takes every text there is. -/
lemma RunInput.outcomeOn_eq_outcome {c : Console} (h : ∀ taken text, c.err taken text = none)
    (settings : Settings) (input : RunInput) :
    input.outcomeOn c settings = input.outcome c.out settings := by
  rw [outcomeOn, outcome, Console.outcome_eq_onto, Console.outcome_of_takes fun _ _ _ _ => h _ _]

/-- A run of the program over an input is the run on the device that its world has. -/
lemma runProgram_eq_outcome {w : World} {arguments : List String} {request : Request}
    {input : RunInput} {settings : Settings}
    (hrequest : Request.ofArguments arguments w.environment = .ok request)
    (hreads : request.reads w = some (input, settings)) :
    runProgram arguments w = input.outcome (.ofFailure w.stdoutFailure) settings :=
  (runProgramOn_eq_outcomeOn _ hrequest hreads).trans
    (RunInput.outcomeOn_eq_outcome (fun _ _ => rfl) settings input)

/-- **The verbosity is not observed, as long as the records are taken.** Take the contents of a file
or the lines of a session, either of which may fail to be read, a form of tokens, and a console on
which each stream may refuse any text, in view of what it took before. All runs take one course,
whatever the verbosity: everything is written in the order of this course, and a scan in it leaves
its records that are shown as one block at its place. The scans are those of the file or of the
lines, up to the place where standard output refuses a text.

If standard error takes every text of a run, then status and standard output are those of the
course, and standard error has its reports and blocks. If it passes over the records, then status
and standard output are those of the run that shows nothing, whatever it does with the reports, and
it has the blocks among the same texts. A verbosity that leaves out the records for debugging shows
none of a scan, so there the runs are equal. If standard error refuses a record, the process crashes
there, and nothing behind the record is printed. The program is this run, whatever arguments and
environment ask for it.

**Proof sketch.** What a line leads to and what is kept behind it do not depend on the verbosity, so
by induction on the lines neither does the course. Standard output sees none of the records and
refuses the same one of its texts. What standard error takes is followed along the course. -/
theorem verbosity_not_observed (c : Console) (input : RunInput) (format : TokenFormat) :
    ∃ course : Course,
      ((∀ v, (input.transcript ⟨format, v⟩).onto c.out = course.transcript v) ∧
        course.scans <+: input.scannedTexts ∧
        ((∀ taken text, c.out taken text = none) → course.scans = input.scannedTexts)) ∧
      (∀ v, c.err.Takes (course.transcript v).errTexts →
        input.outcomeOn c ⟨format, v⟩ =
          ⟨course.exitStatus, String.join (course.events.map Event.stdout),
            String.join (course.events.map (Event.stderr v)) ++ course.closing⟩) ∧
      (∃ (exit : UInt8) (rest : String) (done : List Event), done <+: course.events ∧
        input.outcomeOn c ⟨format, .off⟩ =
          ⟨exit, String.join (done.map Event.stdout), String.join (done.map Event.report) ++ rest⟩ ∧
        ∀ v, (∀ source ∈ course.scans, ∀ r ∈ shownRecords v source,
            c.err.PassesOver (r.line ++ "\n")) →
          input.outcomeOn c ⟨format, v⟩ =
            ⟨exit, String.join (done.map Event.stdout),
              String.join (done.map (Event.stderr v)) ++ rest⟩) ∧
      (∀ v, v.admits .debug = false →
        input.outcomeOn c ⟨format, v⟩ = input.outcomeOn c ⟨format, .off⟩) ∧
      (∀ v front record behind part cause,
        (course.transcript v).outputs = front ++ .log record :: behind →
        c.err.Takes (front.flatMap Output.errTexts) →
        c.err (String.join (front.flatMap Output.errTexts)) (record.line ++ "\n") =
          some (part, cause) →
        ∃ rest, input.outcomeOn c ⟨format, v⟩ =
          ⟨101, String.join (front.map Output.stdout),
            String.join (front.flatMap Output.errTexts) ++ part ++ rest⟩) ∧
      ∀ (w : World) (arguments : List String) (request : Request) (v : Verbosity),
        Request.ofArguments arguments w.environment = .ok request →
        request.reads w = some (input, ⟨format, v⟩) →
        runProgramOn c arguments w = input.outcomeOn c ⟨format, v⟩ := by
  obtain ⟨course, hcourse, hscans, hall⟩ := (input.course format).exists_onto c.out
  have hrun : ∀ v, (input.transcript ⟨format, v⟩).onto c.out = course.transcript v := by
    intro v
    rw [RunInput.transcript_eq_course, hcourse]
  have hseen : ∀ v, input.outcomeOn c ⟨format, v⟩ = c.unblocked.outcome (course.transcript v) := by
    intro v
    rw [RunInput.outcomeOn, Console.outcome_eq_onto, hrun]
  rw [RunInput.scans_course] at hscans
  obtain ⟨exit, rest, done, hdone, hpassed⟩ :=
    Course.exists_run_of_passesOver c course.failure course.events "" ""
  have hpass : ∀ v, (∀ source ∈ course.scans, ∀ r ∈ shownRecords v source,
      c.err.PassesOver (r.line ++ "\n")) → input.outcomeOn c ⟨format, v⟩ =
        ⟨exit, String.join (done.map Event.stdout),
          String.join (done.map (Event.stderr v)) ++ rest⟩ := by
    intro v hv
    have hbare := hpassed v "" (fun _ => rfl) hv
    rw [String.empty_append, String.empty_append] at hbare
    rw [hseen, Console.outcome]
    exact hbare
  have hquiet : ∀ v, v.admits .debug = false → input.outcomeOn c ⟨format, v⟩ =
      ⟨exit, String.join (done.map Event.stdout), String.join (done.map Event.report) ++ rest⟩ := by
    intro v hv
    rw [hpass v fun source _ r hr => by simp [shownRecords_eq_nil hv] at hr,
      List.map_congr_left fun e _ => Event.stderr_eq_report hv e]
  refine ⟨course, ⟨hrun, hscans, fun htakes => ?_⟩, fun v htakes => ?_,
    ⟨exit, rest, done, hdone, hquiet .off rfl, hpass⟩, fun v hv => ?_, ?_, ?_⟩
  · rw [hall htakes, RunInput.scans_course]
  · rw [hseen, Console.outcome_of_takes htakes, Course.ofTranscript_eq]
  · rw [hquiet v hv, hquiet .off rfl]
  · intro v front record behind part cause houtputs htakes hrefused
    rw [hseen]
    exact Console.exists_outcome_of_refused_record houtputs htakes hrefused
  · intro w arguments request v hrequest hreads
    exact runProgramOn_eq_outcomeOn c hrequest hreads

/-- A tree with a text, a text that has an error, and bytes that are no text. -/
private def sampleTree : Directory :=
  .ofEntries [("a.lox", .file [0x31]), ("b.lox", .file [0x31, 0x20, 0x40]), ("c.lox", .file [0xff])]

/-- A world with the files of this tree. -/
private def treeWorld : World where
  environment := ⟨none, none⟩
  readFile := sampleTree.read
  input := []
  stdoutFailure := none

/-- A console on which standard error is full. -/
private def fullErrorConsole : Console := ⟨.ofFailure none, .ofFailure (some .noSpaceLeft), .plain⟩

/-- A console on which standard error refuses the report on the errors of a file. -/
private def reportlessConsole : Console where
  out := .ofFailure none
  err := fun _ text => if text.toList.head? = some 'E' then some ("", .noSpaceLeft) else none
  wording := .plain

/-- Asked for the whole log or for none of it, the program prints the same tokens of a file that has
an error, and exits with the same status: whether standard error takes all texts, or all but the
report on the error. Where standard error is full, the first record is refused. -/
theorem verbosity_not_observed_file :
    ((runProgramOn (.ofFailure none) ["--log-level", "trace", "b.lox"] treeWorld).exit =
        (runProgramOn (.ofFailure none) ["--log-level", "off", "b.lox"] treeWorld).exit ∧
      (runProgramOn (.ofFailure none) ["--log-level", "trace", "b.lox"] treeWorld).stdout =
        (runProgramOn (.ofFailure none) ["--log-level", "off", "b.lox"] treeWorld).stdout) ∧
    ((runProgramOn reportlessConsole ["--log-level", "trace", "b.lox"] treeWorld).exit =
        (runProgramOn reportlessConsole ["--log-level", "off", "b.lox"] treeWorld).exit ∧
      (runProgramOn reportlessConsole ["--log-level", "trace", "b.lox"] treeWorld).stdout =
        (runProgramOn reportlessConsole ["--log-level", "off", "b.lox"] treeWorld).stdout) ∧
    (runProgramOn fullErrorConsole ["--log-level", "trace", "b.lox"] treeWorld).exit = 101 := by
  have htrace : Request.ofArguments ["--log-level", "trace", "b.lox"] treeWorld.environment =
      .ok (.tokens "b.lox" ⟨.canonical, .upTo .trace⟩) := rfl
  have hoff : Request.ofArguments ["--log-level", "off", "b.lox"] treeWorld.environment =
      .ok (.tokens "b.lox" ⟨.canonical, .off⟩) := rfl
  refine ⟨?_, ?_, ?_⟩
  · obtain ⟨course, -, htaken, -, -, -, hruns⟩ :=
      verbosity_not_observed (.ofFailure none) (.file (.ok "1 @")) .canonical
    rw [hruns _ _ _ _ htrace rfl, hruns _ _ _ _ hoff rfl, htaken _ fun _ _ _ _ => rfl,
      htaken _ fun _ _ _ _ => rfl]
    exact ⟨rfl, rfl⟩
  · obtain ⟨course, -, -, ⟨exit, rest, done, -, -, hpassed⟩, -, -, hruns⟩ :=
      verbosity_not_observed reportlessConsole (.file (.ok "1 @")) .canonical
    have hrecord : ∀ r : LogRecord, reportlessConsole.err.PassesOver (r.line ++ "\n") := by
      intro r before
      exact ⟨if_neg (by simp [LogRecord.line]), fun _ => rfl⟩
    rw [hruns _ _ _ _ htrace rfl, hruns _ _ _ _ hoff rfl, hpassed _ fun _ _ r _ => hrecord r,
      hpassed _ fun _ _ r _ => hrecord r]
    exact ⟨rfl, rfl⟩
  · obtain ⟨course, ⟨horder, -⟩, -, -, -, hrefused, hruns⟩ :=
      verbosity_not_observed fullErrorConsole (.file (.ok "1 @")) .canonical
    have houtputs : (course.transcript (.upTo .trace)).outputs =
        [] ++ .log ⟨.trace, "<NUMBER \"1\" @ 1:1-1:2>"⟩ ::
          (course.transcript (.upTo .trace)).outputs.tail := by
      rw [← horder]
      decide +kernel
    obtain ⟨rest, hcrash⟩ := hrefused _ _ _ _ "" .noSpaceLeft houtputs Device.Takes.nil rfl
    rw [hruns _ _ _ _ htrace rfl, hcrash]

/-- **The verbosity is observed where standard error refuses a record.** With standard error full, a
run over a file without errors succeeds if nothing of the log is shown, and crashes before the first
token if all of it is. A run over a file that is no text scans nothing, so that it leaves no record
either. -/
theorem verbosity_observed_if_record_refused :
    (runProgramOn fullErrorConsole ["--log-level", "off", "a.lox"] treeWorld =
        ⟨0, "NUMBER 1 1.0\nEOF  null\n", ""⟩ ∧
      runProgramOn fullErrorConsole ["--log-level", "trace", "a.lox"] treeWorld = ⟨101, "", ""⟩) ∧
    (¬ ∀ (c : Console) (input : RunInput) (format : TokenFormat) (v v' : Verbosity),
      (input.outcomeOn c ⟨format, v⟩).exit = (input.outcomeOn c ⟨format, v'⟩).exit ∧
        (input.outcomeOn c ⟨format, v⟩).stdout = (input.outcomeOn c ⟨format, v'⟩).stdout) ∧
    runProgram ["--log-level", "debug", "c.lox"] treeWorld =
      ⟨66, "", "Error reading source file: stream did not contain valid UTF-8\n"⟩ := by
  refine ⟨⟨by decide +kernel, by decide +kernel⟩, fun h => ?_, by decide +kernel⟩
  have hsame := h fullErrorConsole (.file (.ok "1")) .canonical .off (.upTo .trace)
  exact absurd hsame.1 (by decide +kernel)

end LoxLex
