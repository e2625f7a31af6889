import LoxLex.Proofs.CommandLineReading
import LoxLex.Proofs.ConsoleRuns

set_option relaxedAutoImplicit false
set_option autoImplicit false

/-!
# Usage errors

Two parts of the program decide whether a call is offered. The arguments are read first, and a
source file is required of them unless a command is named. What was read is then given to
`RunMode.select`, which refuses a source file and a command together, and also a call that names
neither. The second of these refusals is never made: a call without a source file and without a
command is refused before, by the reader, and the process exits with another status. So the status
of a usage error is left for the calls that name both.

## Main definitions

* `LoxLex.Environment.IsValid` — an environment has no wrong value.
* `LoxLex.CommandLine.CompletedBy` — an environment has no wrong value for an option that is not
  written.

## Main results

* `LoxLex.Stands.finish_eq_refused_iff` — a reading ends in a refusal of what it names just if it
  names both.
* `LoxLex.ofArguments_eq_refused_iff` — which arguments lead to that.
* `LoxLex.exit_plan_iff` — nothing else exits with the status of a usage error.
* `LoxLex.usage_error_iff_file_and_command` — calls that name both, and calls that name neither.
-/

namespace LoxLex

/-! ## Values from the environment -/

namespace Environment

variable {e : Environment} {given found values : OptionValues} {option other : OptionName}

/-- The value of an option that is not given has to be one of its values. -/
def Fills (e : Environment) (given : OptionValues) : Prop :=
  ∀ option, given.has option = false → ∀ value, e.value? option = some value →
    option.admits value = true

/-- The same for the options that are written at one place. -/
def Completes (e : Environment) (options : List WrittenOption) : Prop :=
  ∀ option, option ∉ options.map WrittenOption.option → ∀ value, e.value? option = some value →
    option.admits value = true

/-- An environment without a wrong value. A variable that is not set has none. -/
def IsValid (e : Environment) : Prop :=
  ∀ option value, e.value? option = some value → option.admits value = true

/-- One option is filled in, if it is not yet. -/
lemma exists_fillOption_iff (hfound : found.has option = false) :
    (∃ values, e.fillOption given found option = .ok values) ↔
      (given.has option = false → ∀ value, e.value? option = some value →
        option.admits value = true) := by
  have hset : ∀ value, (∃ values, found.set option value = .ok values) ↔ _ :=
    fun value => OptionValues.exists_set_eq_ok_iff
  rw [fillOption]
  cases hgiven : given.has option <;> cases hvalue : e.value? option <;> simp [hset, hfound]

/-- An option that is filled in leaves the others as they are. -/
lemma has_of_fillOption (h : e.fillOption given found option = .ok values) (hne : other ≠ option) :
    values.has other = found.has other := by
  rw [fillOption] at h
  split at h
  · cases h
    rfl
  · split at h
    · have hset := OptionValues.has_of_set h other
      simpa [hne] using hset
    · cases h
      rfl

/-- All options are filled in just if each of them is. -/
lemma exists_fill_iff (e : Environment) (given : OptionValues) :
    (∃ values, e.fill given = .ok values) ↔ e.Fills given := by
  have hfill : e.fill given =
      (e.fillOption given .none .format >>= fun found => e.fillOption given found .verbosity) := by
    rw [fill, List.foldlM_cons]
    exact bind_congr fun found => bind_pure (e.fillOption given found .verbosity)
  have hfresh : ∀ found, e.fillOption given .none .format = .ok found →
      found.has .verbosity = false := by
    intro found h
    exact has_of_fillOption h (by decide)
  have hnone : OptionValues.none.has .format = false := rfl
  simp only [hfill, bind_eq_ok_iff]
  constructor
  · rintro ⟨values, found, hformat, hverbosity⟩ option
    cases option with
    | format => exact (exists_fillOption_iff hnone).1 ⟨found, hformat⟩
    | verbosity => exact (exists_fillOption_iff (hfresh found hformat)).1 ⟨values, hverbosity⟩
  · intro h
    obtain ⟨found, hformat⟩ := (exists_fillOption_iff hnone).2 (h .format)
    obtain ⟨values, hverbosity⟩ :=
      (exists_fillOption_iff (hfresh found hformat)).2 (h .verbosity)
    exact ⟨values, found, hformat, hverbosity⟩

/-- The options of one place are completed. -/
lemma exists_fill_of_valuesOf {options : List WrittenOption} (h : valuesOf options = .ok given) :
    (∃ values, e.fill given = .ok values) ↔ e.Completes options := by
  rw [exists_fill_iff]
  refine forall_congr' fun option => imp_congr ?_ Iff.rfl
  rw [← has_of_valuesOf h, Bool.not_eq_true]

end Environment

/-- Whether an environment completes the options at each place of a command line. -/
def CommandLine.CompletedBy (c : CommandLine) (e : Environment) : Prop :=
  e.Completes c.outerOptions ∧ (c.command.isSome → e.Completes c.innerOptions)

/-- An environment without a wrong value completes every command line. -/
lemma Environment.IsValid.completedBy {e : Environment} (h : e.IsValid) (c : CommandLine) :
    c.CompletedBy e :=
  ⟨fun option _ => h option, fun _ option _ => h option⟩

/-! ## The end of a reading -/

/-- A source file and a command are refused together, and so is neither of them. -/
lemma RunMode.select_eq_error_iff {call : Option CommandCall} {path : Option String}
    {error : RunError} :
    select call path = .error error ↔ call.isSome = path.isSome ∧ error = .usage usageText := by
  rcases call with _ | _ | _ <;> cases path <;> simp [select, eq_comm]

/-- A request is a refusal where no mode is selected. -/
lemma Request.ofMode_eq_refused_iff {settings : Settings} {mode : Except RunError RunMode}
    {error : RunError} : ofMode settings mode = .refused error ↔ mode = .error error := by
  rcases mode with _ | _ | _ <;> simp [ofMode]

namespace Reading

variable {r : Reading} {e : Environment}

/-- There are settings if the options of both places have values and are filled in. -/
lemma exists_settings_iff :
    (∃ settings, r.settings e = .ok settings) ↔
      ∃ outer inner, r.outer.settle = .ok outer ∧ r.inner.settle = .ok inner ∧
        (∃ values, e.fill outer = .ok values) ∧
        (r.command.isSome → ∃ values, e.fill inner = .ok values) := by
  -- Without a command, the environment is not asked for the options behind it.
  cases hcalled : r.command.isSome with
  | false =>
    simp only [settings, hcalled, Bool.false_eq_true, if_false, bind_eq_ok_iff, pure_eq_ok]
    constructor
    · rintro ⟨_, inner, hinner, outer, houter, _, -, values, hvalues, -⟩
      exact ⟨outer, inner, houter, hinner, ⟨values, hvalues⟩, False.elim⟩
    · rintro ⟨outer, inner, houter, hinner, ⟨values, hvalues⟩, -⟩
      exact ⟨_, inner, hinner, outer, houter, _, rfl, values, hvalues, rfl⟩
  | true =>
    simp only [settings, hcalled, if_true, bind_eq_ok_iff, pure_eq_ok, forall_const]
    constructor
    · rintro ⟨_, inner, hinner, outer, houter, found, hfound, values, hvalues, -⟩
      exact ⟨outer, inner, houter, hinner, ⟨values, hvalues⟩, ⟨found, hfound⟩⟩
    · rintro ⟨outer, inner, houter, hinner, ⟨values, hvalues⟩, ⟨found, hfound⟩⟩
      exact ⟨_, inner, hinner, outer, houter, found, hfound, values, hvalues, rfl⟩

/-- Where no help is asked for and no option waits, the settings and what is named decide. -/
lemma finish_eq (htopic : r.topic = none) (hawaiting : r.awaiting = none) :
    r.finish e = r.settings e >>= fun settings => r.call >>= fun command =>
      r.sourceFile >>= fun path => .ok (.ofMode settings (RunMode.select command path)) := by
  rw [finish, htopic, hawaiting]
  rfl

/-- A request for help is not refused, and an option that waits is an error of the arguments. -/
lemma topic_of_finish {error : RunError} (h : r.finish e = .ok (.refused error)) :
    r.topic = none ∧ r.awaiting = none := by
  rw [finish] at h
  cases htopic : r.topic with
  | some topic => simp [htopic] at h
  | none =>
    cases hawaiting : r.awaiting with
    | some option => simp [htopic, hawaiting, bind_eq_ok_iff] at h
    | none => exact ⟨rfl, rfl⟩

end Reading

namespace Stands

variable {c : CommandLine} {r : Reading} {e : Environment}

/-- There are settings if the options at each place are compatible and completed. -/
lemma exists_settings_iff (h : Stands c r) : (∃ settings, r.settings e = .ok settings) ↔
    (Compatible c.outerOptions ∧ Compatible c.innerOptions) ∧ c.CompletedBy e := by
  rw [Reading.exists_settings_iff, CommandLine.CompletedBy, h.outer, h.inner, ← h.isSome_command,
    ← exists_valuesOf_iff, ← exists_valuesOf_iff]
  constructor
  · rintro ⟨outer, inner, houter, hinner, hfill, hfill'⟩
    exact ⟨⟨⟨outer, houter⟩, inner, hinner⟩, (Environment.exists_fill_of_valuesOf houter).1 hfill,
      fun hcalled => (Environment.exists_fill_of_valuesOf hinner).1 (hfill' hcalled)⟩
  · rintro ⟨⟨⟨outer, houter⟩, inner, hinner⟩, hfill, hfill'⟩
    exact ⟨outer, inner, houter, hinner, (Environment.exists_fill_of_valuesOf houter).2 hfill,
      fun hcalled => (Environment.exists_fill_of_valuesOf hinner).2 (hfill' hcalled)⟩

/-- The reader lets a command and a source file pass that are both there, and never two that are
both missing. -/
lemma namesBoth_iff (h : Stands c r) :
    c.NamesBoth ↔ ∃ command path, r.call = .ok command ∧ r.sourceFile = .ok path ∧
      command.isSome = path.isSome := by
  rw [CommandLine.NamesBoth, CommandLine.call?, ← h.outerFile, ← h.innerFile, ← h.command,
    Reading.call, Reading.sourceFile]
  cases houter : r.outerFile <;> rcases hcommand : r.command with _ | _ | _ <;>
    cases hinner : r.innerFile <;> simp_all [h.noFile]

/-- **Refusals of what is named.** The reading ends in such a refusal just if a source file and a
complete command are named.

**Proof sketch.** The mode is selected last. Where it is refused, command and source file are both
there or both missing, and the reader has asked for one of them before. -/
theorem finish_eq_refused_iff (h : Stands c r) (hawaiting : r.awaiting = none) {error : RunError} :
    r.finish e = .ok (.refused error) ↔
      ((Compatible c.outerOptions ∧ Compatible c.innerOptions) ∧ c.CompletedBy e) ∧ c.NamesBoth ∧
        error = .usage usageText := by
  rw [Reading.finish_eq h.topic hawaiting, ← h.exists_settings_iff, h.namesBoth_iff]
  simp only [bind_eq_ok_iff, Except.ok.injEq, Request.ofMode_eq_refused_iff,
    RunMode.select_eq_error_iff]
  constructor
  · rintro ⟨settings, hsettings, command, hcommand, path, hpath, hsame, herror⟩
    exact ⟨⟨settings, hsettings⟩, ⟨command, path, hcommand, hpath, hsame⟩, herror⟩
  · rintro ⟨⟨settings, hsettings⟩, ⟨command, path, hcommand, hpath, hsame⟩, herror⟩
    exact ⟨settings, hsettings, command, hcommand, path, hpath, hsame, herror⟩

/-- Where nothing is named, the reader asks for a source file. -/
lemma finish_of_namesNeither (h : Stands c r) (hawaiting : r.awaiting = none)
    (hnames : c.NamesNeither) (hc : c.WellWritten) (he : c.CompletedBy e) :
    r.finish e = .error .missingFile := by
  obtain ⟨settings, hsettings⟩ := h.exists_settings_iff.2 ⟨⟨hc.outer, hc.inner⟩, he⟩
  have hcommand : r.command = none := by rw [h.command, hnames.2, Option.map_none]
  have houter : r.outerFile = none := Option.toList_eq_nil_iff.1 (h.outerFile.trans hnames.1)
  rw [Reading.finish_eq h.topic hawaiting, hsettings, Reading.call, Reading.sourceFile, hcommand,
    houter]
  rfl

end Stands

/-! ## Requests -/

/-- Arguments lead to a refusal of what is named where a reading of all of them ends in one. -/
lemma Request.ofArguments_refused_iff_reads {arguments : List String} {e : Environment}
    {error : RunError} : Request.ofArguments arguments e = .ok (.refused error) ↔
      ∃ r, Reads arguments r ∧ r.finish e = .ok (.refused error) := by
  rw [Request.ofArguments]
  cases hread : arguments.foldlM Reading.step Reading.start with
  | ok r => simp [Reads, hread]
  | error halt => cases halt <;> simp [Reads, hread]

/-- **The arguments of a usage error.** What arguments name is refused just if they are those of a
command line that is written well and names a source file and a complete command.

**Proof sketch.** Whatever is read is written so, and what is written well is read. -/
theorem ofArguments_eq_refused_iff {arguments : List String} {e : Environment} {error : RunError} :
    Request.ofArguments arguments e = .ok (.refused error) ↔
      error = .usage usageText ∧ ∃ c : CommandLine, c.arguments = arguments ∧ c.WellWritten ∧
        c.NamesBoth ∧ c.CompletedBy e := by
  rw [Request.ofArguments_refused_iff_reads]
  constructor
  · rintro ⟨r, hr, hfinish⟩
    obtain ⟨htopic, hnone⟩ := Reading.topic_of_finish hfinish
    cases readFrom_of_reads hr with
    | @line c h hplain ha hawaiting =>
      obtain ⟨⟨⟨houter, hinner⟩, he⟩, hboth, rfl⟩ := (h.finish_eq_refused_iff hawaiting).1 hfinish
      exact ⟨rfl, c, ha, ⟨hplain, houter, hinner⟩, hboth, he⟩
    | waiting _ _ _ _ hawaiting => simp [hnone] at hawaiting
    | help hsome => simp [htopic] at hsome
  · rintro ⟨rfl, c, rfl, hc, hboth, he⟩
    obtain ⟨r, hr, h, hawaiting⟩ := exists_reads hc hboth.hasRoom
    exact ⟨r, hr, (h.finish_eq_refused_iff hawaiting).2 ⟨⟨⟨hc.outer, hc.inner⟩, he⟩, hboth, rfl⟩⟩

/-- Arguments that name nothing are refused by the reader. -/
lemma ofArguments_of_namesNeither {c : CommandLine} {e : Environment} (hc : c.WellWritten)
    (hnames : c.NamesNeither) (he : c.CompletedBy e) :
    Request.ofArguments c.arguments e = .error .missingFile := by
  obtain ⟨r, hr, h, hawaiting⟩ := exists_reads hc hnames.hasRoom
  rw [Request.ofArguments, hr]
  exact h.finish_of_namesNeither hawaiting hnames hc he

/-! ## Exit statuses -/

/-- A run exits with 64 where it ends in a usage error. -/
lemma Transcript.exitStatus_eq_iff {t : Transcript} :
    t.exitStatus = 64 ↔ ∃ message, t.failure = some (.usage message) := by
  rw [exitStatus]
  cases t.failure with
  | none => simp
  | some error => cases error <;> simp [RunError.exitStatus]

/-- A session that ends in an error could not read. -/
lemma Session.failure_transcript (s : Session) (lines : List (Except IoError String)) :
    ∀ error ∈ (s.transcript lines).failure, ∃ cause, error = .stream cause := by
  induction lines generalizing s with
  | nil => simp [transcript]
  | cons line lines ih =>
    cases line with
    | error cause => simp [transcript]
    | ok line =>
      rw [transcript]
      split
      · simp
      · exact ih _

/-- A run that ends in a usage error meant to: what standard output refuses is another error. -/
lemma failure_of_exit_outcome {stdoutFailure : Option IoError} {t : Transcript}
    (h : ((Console.ofFailure stdoutFailure).outcome t).exit = 64) :
    ∃ message, t.failure = some (.usage message) := by
  rw [Console.outcome_ofFailure] at h
  obtain ⟨message, hfailure⟩ := Transcript.exitStatus_eq_iff.1 h
  rw [Transcript.onto] at hfailure
  split at hfailure
  · exact ⟨message, hfailure⟩
  · simp at hfailure

/-- A refusal writes nothing to standard output, which then need not take anything. -/
lemma outcome_plan_refused (w : World) (error : RunError) :
    (Request.refused error).plan.outcome w.console w = .ofTranscript ⟨[], some error⟩ :=
  Console.outcome_ofFailure _ _

/-- Only refusals with a usage error exit with the status of one. -/
theorem exit_plan_iff {w : World} {request : Request} :
    (request.plan.outcome w.console w).exit = 64 ↔
      ∃ message, request = .refused (.usage message) := by
  constructor
  · intro h
    cases request with
    | tokens path settings =>
      obtain ⟨message, hfailure⟩ := failure_of_exit_outcome h
      cases hread : w.readFile path with
      | error cause => simp [fileTranscript, hread] at hfailure
      | ok source => simp [fileTranscript, hread] at hfailure
    | session settings =>
      obtain ⟨message, hfailure⟩ := failure_of_exit_outcome h
      obtain ⟨cause, hcause⟩ := Session.failure_transcript _ _ _ hfailure
      cases hcause
    | refused error =>
      obtain ⟨message, hfailure⟩ := failure_of_exit_outcome h
      exact ⟨message, congrArg Request.refused (Option.some.inj hfailure)⟩
    | version | help => exact absurd h (by simp [Request.plan, Plan.outcome])
  · rintro ⟨message, rfl⟩
    rw [outcome_plan_refused]
    rfl

/-- The runs that exit with the status of a usage error are those of arguments that name both. -/
theorem exit_runProgram_iff (arguments : List String) (w : World) :
    (runProgram arguments w).exit = 64 ↔ ∃ c : CommandLine, c.arguments = arguments ∧
      c.WellWritten ∧ c.NamesBoth ∧ c.CompletedBy w.environment := by
  have hrefused : (runProgram arguments w).exit = 64 ↔
      ∃ error, Request.ofArguments arguments w.environment = .ok (.refused error) := by
    rw [runProgram, runProgramOn]
    cases hrequest : Request.ofArguments arguments w.environment with
    | error error => simp [ArgumentError.exitStatus]
    | ok request =>
      simp only [exit_plan_iff, Except.ok.injEq]
      constructor
      · rintro ⟨message, rfl⟩
        exact ⟨_, rfl⟩
      · rintro ⟨error, rfl⟩
        obtain ⟨rfl, -⟩ := ofArguments_eq_refused_iff.1 hrequest
        exact ⟨_, rfl⟩
  rw [hrefused]
  simp only [ofArguments_eq_refused_iff, exists_and_right, exists_eq, true_and]

/-! ## Calls that name both or neither -/

/-- **A usage error names both.** Take a command line whose options are given once at each place, in
any spelling and in any order, with values that they have, and an environment without a wrong value.
If it names a source file and a complete command, the run ends in a usage error: it exits with 64,
has the line on the usage on standard error and nothing on standard output, and reads neither a file
nor standard input, whether standard output can be written or not. If it names neither, the reader
asks for a source file, and the run exits with 2. Conversely, in every environment, a run that exits
with 64 is one over the arguments of a command line that names both.

**Proof sketch.** A command line that is written well is read to its end, and the reading stands
behind it. What is named then decides, first in the reader and then where the mode is selected. For
the converse, whatever is read to its end is written so, and no other answer and no error of the
reader has that status. -/
theorem usage_error_iff_file_and_command {c : CommandLine} {w : World} (hc : c.WellWritten)
    (hw : w.environment.IsValid) :
    (c.NamesBoth →
      (∃ request, Request.ofArguments c.arguments w.environment = .ok request ∧
        request.plan = .closed ⟨[], some (.usage usageText)⟩) ∧
      runProgram c.arguments w =
        ⟨64, "", "Usage: lox-scanner [OPTIONS] <SOURCE_FILE> | tokenize <SOURCE_FILE> | repl\n"⟩) ∧
    (c.NamesNeither →
      Request.ofArguments c.arguments w.environment = .error .missingFile ∧
      (runProgram c.arguments w).exit = 2 ∧ (runProgram c.arguments w).stdout = "") ∧
    ∀ (arguments : List String) (w' : World), (runProgram arguments w').exit = 64 ↔
      ∃ c' : CommandLine, c'.arguments = arguments ∧ c'.WellWritten ∧ c'.NamesBoth ∧
        c'.CompletedBy w'.environment := by
  have he := hw.completedBy c
  refine ⟨fun hboth => ?_, fun hneither => ?_, exit_runProgram_iff⟩
  · have hrequest := ofArguments_eq_refused_iff.2 ⟨rfl, c, rfl, hc, hboth, he⟩
    refine ⟨⟨_, hrequest, rfl⟩, ?_⟩
    rw [runProgram, runProgramOn, hrequest]
    exact outcome_plan_refused w _
  · have hrequest := ofArguments_of_namesNeither hc hneither he
    rw [runProgram, runProgramOn, hrequest]
    exact ⟨rfl, rfl, rfl⟩

/-- A world of empty files, in which a variable says how much of the log is shown. -/
private def loggedWorld : World where
  environment := ⟨none, some "info"⟩
  readFile := fun _ => .ok ""
  input := []
  stdoutFailure := none

/-- The variable has one of its values. -/
private lemma isValid_loggedWorld : loggedWorld.environment.IsValid := by
  intro option value h
  cases option with
  | format => cases h
  | verbosity =>
    cases h
    decide +kernel

/-- A command line with an option and a file at each place, the options in both spellings. -/
private def twoFiles : CommandLine where
  outer := [.option ⟨.format, "debug", true⟩, .file "a.lox"]
  command := some (.tokenize, [.option ⟨.verbosity, "TRACE", false⟩, .file "b.lox"])
  divided := none

/-- A command line with an option and nothing else. -/
private def optionAlone : CommandLine where
  outer := [.option ⟨.verbosity, "off", false⟩]
  command := none
  divided := none

/-- Options in both spellings and at both places, with a file at each, are a usage error; an option
alone is none. -/
theorem usage_error_iff_file_and_command_with_options :
    runProgram ["--format=debug", "a.lox", "tokenize", "--log-level", "TRACE", "b.lox"]
        loggedWorld =
      ⟨64, "", "Usage: lox-scanner [OPTIONS] <SOURCE_FILE> | tokenize <SOURCE_FILE> | repl\n"⟩ ∧
      (runProgram ["--log-level", "off"] loggedWorld).exit = 2 := by
  have hboth : twoFiles.WellWritten ∧ twoFiles.NamesBoth := by decide +kernel
  have hneither : optionAlone.WellWritten ∧ optionAlone.NamesNeither := by decide +kernel
  constructor
  · exact ((usage_error_iff_file_and_command hboth.1 isValid_loggedWorld).1 hboth.2).2
  · exact ((usage_error_iff_file_and_command hneither.1 isValid_loggedWorld).2.1 hneither.2).2.1

/-- The refusal of a call that names neither is there, but it is not what such a call meets: without
any argument the run does not exit with the status of a usage error. -/
theorem usage_error_not_reached_without_arguments :
    RunMode.select none none = .error (.usage usageText) ∧
      ¬ ∀ (c : CommandLine) (w : World), c.WellWritten → w.environment.IsValid → c.NamesNeither →
        (runProgram c.arguments w).exit = 64 := by
  refine ⟨rfl, fun h => ?_⟩
  have hexit := h ⟨[], none, none⟩ loggedWorld (by decide +kernel) isValid_loggedWorld
    (by decide +kernel)
  exact absurd hexit (by decide +kernel)

end LoxLex
