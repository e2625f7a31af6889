import LoxLex.Proofs.CommandLines

set_option relaxedAutoImplicit false
set_option autoImplicit false

/-!
# Reading what is written

Command lines are written down as structures, and read argument by argument. The two agree: a
command line that is written well, with no more files than are asked for, is read to its end; and
whatever is read to its end was written down in some such way, unless the word `help` is in it or an
option still waits for its value. In both directions the reading *stands behind* what was written
so far: it has the same command, the same files, and at each place the same options.

A value that is an argument of its own is held back for a while, so the options of a place are
compared only once that value is taken in.

## Main definitions

* `LoxLex.Stands` — a reading stands behind a command line.
* `LoxLex.Reads` — a list of arguments is read to its end.
* `LoxLex.ReadFrom` — what a list of arguments that was read to its end can be.

## Main results

* `LoxLex.exists_reads` — what is written well is read.
* `LoxLex.readFrom_of_reads` — whatever is read is written so.
-/

namespace LoxLex

/-! ## A reading behind a command line -/

/-- Where the reading stands behind a command line: it has the same command, the same files and the
same options, and no help is asked for. -/
structure Stands (c : CommandLine) (r : Reading) : Prop where
  topic : r.topic = none
  divided : r.divided = c.divided.isSome
  command : r.command = c.command.map Prod.fst
  outerFile : r.outerFile.toList = c.outerFiles
  innerFile : r.innerFile.toList = c.innerFiles
  noFile : r.command = some .repl → r.innerFile = none
  outer : r.outer.settle = valuesOf c.outerOptions
  inner : r.inner.settle = valuesOf c.innerOptions

namespace Stands

variable {c : CommandLine} {r s : Reading}

/-- Nothing was read, and nothing is written. -/
lemma start : Stands ⟨[], none, none⟩ .start := ⟨rfl, rfl, rfl, rfl, rfl, fun _ => rfl, rfl, rfl⟩

lemma isSome_command (h : Stands c r) : c.command.isSome = r.command.isSome := by
  rw [h.command, Option.isSome_map]

lemma command_eq_none (h : Stands c r) (hr : r.command = none) : c.command = none :=
  Option.map_eq_none_iff.1 (h.command.symm.trans hr)

lemma divided_eq_none (h : Stands c r) (hr : r.divided = false) : c.divided = none := by
  have hdivided := h.divided
  simpa [hr] using hdivided

lemma ready (h : Stands c r) (hawaiting : r.awaiting = none) (hdivided : c.divided = none) :
    r.Ready :=
  ⟨h.topic, by simp [h.divided, hdivided], hawaiting⟩

/-- The options of the place where the reading stands are those of the place where the command line
ends. -/
lemma here (h : Stands c r) : r.here.settle = valuesOf c.lastOptions := by
  rw [Reading.here_eq, CommandLine.lastOptions, h.isSome_command]
  split
  · exact h.inner
  · exact h.outer

/-- An option that is waited for is not yet written. -/
lemma setAwaiting (h : Stands c r) (awaiting : Option OptionName) :
    Stands c { r with awaiting := awaiting } :=
  ⟨h.topic, h.divided, h.command, h.outerFile, h.innerFile, h.noFile, h.outer, h.inner⟩

/-- It does not matter whether a value is held back. -/
lemma settle (h : Stands c r) (hs : r.settle = .ok s) : Stands c s := by
  obtain ⟨values, hvalues, rfl⟩ := Reading.settle_eq_ok_iff.1 hs
  have hhere : (PlaceOptions.mk values none).settle = r.here.settle := hvalues.symm
  rw [Reading.here_eq] at hhere
  refine ⟨by simp [h.topic], by simp [h.divided], by simp [h.command], by simp [h.outerFile],
    by simp [h.innerFile], by simpa using h.noFile, ?_, ?_⟩
  · rw [← h.outer, Reading.outer_setHere]
    split
    · rfl
    · rename_i hcommand
      rwa [if_neg hcommand] at hhere
  · rw [← h.inner, Reading.inner_setHere]
    split
    · rename_i hcommand
      rwa [if_pos hcommand] at hhere
    · rfl

/-- Behind a further option, whether its value is held back or not. -/
lemma addOption (h : Stands c r) {o : WrittenOption} {p : PlaceOptions}
    (hp : p.settle = valuesOf (c.lastOptions ++ [o])) :
    Stands (c.addPart (.option o)) (r.setHere p) := by
  rw [CommandLine.lastOptions, h.isSome_command] at hp
  refine ⟨by simp [h.topic], by simp [h.divided], by simp [h.command], by simp [h.outerFile],
    by simp [h.innerFile], by simpa using h.noFile, ?_, ?_⟩
  · rw [CommandLine.outerOptions_addOption, h.isSome_command, Reading.outer_setHere]
    split
    · exact h.outer
    · rename_i hcommand
      rwa [if_neg hcommand] at hp
  · rw [CommandLine.innerOptions_addOption, h.isSome_command, Reading.inner_setHere]
    split
    · rename_i hcommand
      rwa [if_pos hcommand] at hp
    · exact h.inner

/-- Behind an option whose value was taken in at once. -/
lemma setOption (h : Stands c r) {o : WrittenOption} (hs : r.setOption o.option o.value = .ok s) :
    Stands (c.addPart (.option o)) s := by
  obtain ⟨values, added, hvalues, hadded, rfl⟩ := Reading.setOption_eq_ok_iff.1 hs
  refine (h.addOption ?_).setAwaiting none
  rw [valuesOf_concat (h.here.symm.trans hvalues)]
  exact hadded.symm

/-- Behind an option whose value is held back. -/
lemma hold (h : Stands c r) (hheld : r.here.held = none) (o : WrittenOption) :
    Stands (c.addPart (.option o)) (r.hold o.option o.value) := by
  have hvalues : r.here.settle = .ok r.here.values := by rw [PlaceOptions.settle, hheld]
  refine (h.addOption ?_).setAwaiting none
  rw [valuesOf_concat (h.here.symm.trans hvalues)]
  rfl

/-- Behind a further file. -/
lemma setFile (h : Stands c r) {path : String} (hs : r.setFile path = .ok s) :
    Stands (c.addFile path) s := by
  obtain ⟨settled, hsettled, hcases⟩ := Reading.setFile_eq_ok_iff.1 hs
  obtain ⟨htopic, hdivided, hcommand, houter, hinner, hnone, hfront, hbehind⟩ := h.settle hsettled
  obtain ⟨values, -, rfl⟩ := Reading.settle_eq_ok_iff.1 hsettled
  simp only [Reading.setHere_command, Reading.setHere_outerFile, Reading.setHere_innerFile] at *
  rcases hcases with ⟨hr, hfile, rfl⟩ | ⟨hr, hfile, rfl⟩
  · refine ⟨htopic, by simpa using hdivided, by simpa using hcommand, ?_, ?_, ?_,
      by simpa using hfront, by simpa using hbehind⟩
    · simp [h.isSome_command, hr, ← houter, hfile]
    · simp [h.isSome_command, hr, hinner]
    · simp [hr]
  · refine ⟨htopic, by simpa using hdivided, by simpa using hcommand, ?_, ?_, ?_,
      by simpa using hfront, by simpa using hbehind⟩
    · simp [h.isSome_command, hr, houter]
    · simp [h.isSome_command, hr, ← hinner, hfile]
    · simp [hr]

/-- Behind a command. -/
lemma addCommand (h : Stands c r) (hcommand : c.command = none) (hdivided : c.divided = none)
    (command : Command) : Stands (c.addCommand command) { r with command := some command } := by
  have hnone : r.innerFile = none := by
    have hfile := h.innerFile
    rw [CommandLine.innerFiles_eq_nil hcommand] at hfile
    exact Option.toList_eq_nil_iff.1 hfile
  have hinner := h.inner
  rw [CommandLine.innerOptions_eq_nil hcommand] at hinner
  refine ⟨h.topic, h.divided, rfl, ?_, ?_, fun _ => hnone, h.outer, hinner⟩
  · rw [CommandLine.outerFiles_addCommand hcommand hdivided, h.outerFile]
  · rw [CommandLine.innerFiles_addCommand hdivided, hnone, Option.toList_none]

/-- Behind the divider. -/
lemma divide (h : Stands c r) (hdivided : c.divided = none) :
    Stands c.divide { r with divided := true } :=
  ⟨h.topic, rfl, h.command, by rw [CommandLine.outerFiles_divide hdivided, h.outerFile],
    by rw [CommandLine.innerFiles_divide hdivided, h.innerFile], h.noFile, h.outer, h.inner⟩

end Stands

/-! ## Lists of arguments -/

/-- A list of arguments is read to its end. -/
def Reads (arguments : List String) (r : Reading) : Prop :=
  arguments.foldlM Reading.step Reading.start = .ok r

/-- The last argument is read behind the others. -/
lemma reads_concat_iff {arguments : List String} {argument : String} {s : Reading} :
    Reads (arguments ++ [argument]) s ↔ ∃ r, Reads arguments r ∧ r.Takes argument s := by
  simp only [Reads, foldlM_concat_eq_ok_iff, Reading.step_eq_ok_iff]

/-- A further argument is read. -/
lemma Reads.concat {arguments : List String} {argument : String} {r s : Reading}
    (hr : Reads arguments r) (hs : r.Takes argument s) : Reads (arguments ++ [argument]) s :=
  reads_concat_iff.2 ⟨r, hr, hs⟩

/-! ## What is written well is read -/

namespace Stands

variable {c : CommandLine} {r : Reading}

/-- Where the options are compatible, a value that is held back can be taken in. -/
lemma exists_settle (h : Stands c r) (hoptions : Compatible c.lastOptions) :
    ∃ s, r.settle = .ok s := by
  obtain ⟨values, hvalues⟩ := (exists_valuesOf_iff _).2 hoptions
  exact ⟨_, Reading.settle_eq_ok_iff.2 ⟨values, h.here.trans hvalues, rfl⟩⟩

/-- An option that is written with its value is read in one step. -/
lemma exists_addOption_joined (h : Stands c r) (hready : r.Ready) (hr : Reads c.arguments r)
    {o : WrittenOption} (hoptions : Compatible (c.lastOptions ++ [o])) :
    ∃ s, Reads (c.arguments ++ ["--" ++ o.option.name ++ "=" ++ o.value]) s ∧
      Stands (c.addPart (.option o)) s ∧ s.awaiting = none := by
  obtain ⟨values, hvalues⟩ := (exists_valuesOf_iff _).2 (compatible_concat_iff.1 hoptions).1
  obtain ⟨added, hadded⟩ := (exists_valuesOf_iff _).2 hoptions
  rw [valuesOf_concat hvalues] at hadded
  have hset : r.setOption o.option o.value =
      .ok { r.setHere ⟨added, none⟩ with awaiting := none } :=
    Reading.setOption_eq_ok_iff.2 ⟨values, added, h.here.trans hvalues, hadded, rfl⟩
  exact ⟨_, hr.concat (.joined hready rfl hset), h.setOption hset, rfl⟩

/-- An option whose value is an argument of its own is read in two steps, and its value is then held
back. -/
lemma exists_addOption_apart (h : Stands c r) (hready : r.Ready) (hr : Reads c.arguments r)
    {o : WrittenOption} (hoptions : Compatible (c.lastOptions ++ [o])) :
    ∃ s, Reads (c.arguments ++ ["--" ++ o.option.name] ++ [o.value]) s ∧
      Stands (c.addPart (.option o)) s ∧ s.awaiting = none := by
  obtain ⟨hfront, -, hvalue⟩ := compatible_concat_iff.1 hoptions
  obtain ⟨settled, hsettled⟩ := h.exists_settle hfront
  have hwaiting := (h.settle hsettled).setAwaiting (some o.option)
  have hheld := Reading.held_settle hsettled
  have hdivided := (Reading.divided_settle hsettled).trans hready.divided
  have hname : Reads (c.arguments ++ ["--" ++ o.option.name])
      { settled with awaiting := some o.option } := hr.concat (.name hready rfl hsettled)
  have htaken := Reading.Takes.value hwaiting.topic hdivided rfl
    (OptionName.ofArgument_of_admits hvalue)
  exact ⟨_, hname.concat htaken, hwaiting.hold hheld o, rfl⟩

/-- A file that there is room for can be taken in. -/
lemma exists_setFile (h : Stands c r) (hoptions : Compatible c.lastOptions) {path : String}
    (hroom : (c.addFile path).HasRoom) : ∃ s, r.setFile path = .ok s := by
  obtain ⟨settled, hsettled⟩ := h.exists_settle hoptions
  obtain ⟨houter, hinner⟩ := hroom
  rw [CommandLine.outerFiles_addFile, h.isSome_command, ← h.outerFile] at houter
  rw [CommandLine.innerFiles_addFile, CommandLine.command_addFile, h.isSome_command, ← h.command,
    ← h.innerFile] at hinner
  rcases hcommand : r.command with _ | _ | _
  · refine ⟨_, Reading.setFile_eq_ok_iff.2 ⟨settled, hsettled, .inl ⟨hcommand, ?_, rfl⟩⟩⟩
    simpa [hcommand] using houter
  · refine ⟨_, Reading.setFile_eq_ok_iff.2 ⟨settled, hsettled, .inr ⟨hcommand, ?_, rfl⟩⟩⟩
    simpa [hcommand, Command.room] using hinner
  · simp [hcommand, Command.room] at hinner

/-- A file that there is room for is read, if it is not taken for something else. -/
lemma exists_addFile (h : Stands c r) (hawaiting : r.awaiting = none) (hr : Reads c.arguments r)
    (hoptions : Compatible c.lastOptions) {path : String} (hroom : (c.addFile path).HasRoom)
    (hplain : (c.addFile path).IsPlain) :
    ∃ s, Reads (c.arguments ++ [path]) s ∧ Stands (c.addFile path) s ∧ s.awaiting = none := by
  obtain ⟨s, hs⟩ := h.exists_setFile hoptions hroom
  refine ⟨s, hr.concat ?_, h.setFile hs, (Reading.awaiting_setFile hs).trans hawaiting⟩
  cases hdivided : c.divided with
  | none =>
    have hpath := (CommandLine.isPlain_addFile_iff.1 hplain).2 hdivided
    obtain ⟨hshape, hname⟩ := Part.isPlain_file_iff.1 hpath
    refine .file (h.ready hawaiting hdivided) hshape (fun hnone => hname ?_) hs
    simp [h.isSome_command, hnone]
  | some paths => exact .behind h.topic (by simp [h.divided, hdivided]) hs

end Stands

/-- **What is written well is read.** A command line that is written well, with no more files than
are asked for, is read to its end, and the reading then stands behind it.

**Proof sketch.** Induction on the command line from left to right. A file, a command and the
divider are read in one step. An option that is written in two arguments is read in two, and its
value is then held back. -/
theorem exists_reads {c : CommandLine} (h : c.WellWritten) (hroom : c.HasRoom) :
    ∃ r, Reads c.arguments r ∧ Stands c r ∧ r.awaiting = none := by
  induction c using CommandLine.buildUp with
  | start => exact ⟨.start, rfl, Stands.start, rfl⟩
  | option c o hdivided ih =>
    obtain ⟨hc, hoptions⟩ := h.of_addOption
    obtain ⟨r, hr, hstands, hawaiting⟩ := ih hc hroom.of_addOption
    have hready := hstands.ready hawaiting hdivided
    rw [CommandLine.arguments_addPart hdivided, Part.arguments, WrittenOption.arguments]
    split
    · exact hstands.exists_addOption_joined hready hr hoptions
    · rw [List.append_cons]
      exact hstands.exists_addOption_apart hready hr hoptions
  | file c path ih =>
    obtain ⟨r, hr, hstands, hawaiting⟩ := ih h.of_addFile hroom.of_addFile
    rw [CommandLine.arguments_addFile]
    exact hstands.exists_addFile hawaiting hr h.of_addFile.last hroom h.plain
  | command c command hcommand hdivided ih =>
    obtain ⟨r, hr, hstands, hawaiting⟩ :=
      ih (h.of_addCommand hcommand) (hroom.of_addCommand hcommand hdivided)
    have hnone : r.command = none := by rw [hstands.command, hcommand, Option.map_none]
    refine ⟨_, ?_, hstands.addCommand hcommand hdivided command, hawaiting⟩
    rw [CommandLine.arguments_addCommand hcommand hdivided]
    exact hr.concat (.command (hstands.ready hawaiting hdivided) hnone rfl)
  | divide c hdivided ih =>
    obtain ⟨r, hr, hstands, hawaiting⟩ := ih h.of_divide (hroom.of_divide hdivided)
    refine ⟨_, ?_, hstands.divide hdivided, hawaiting⟩
    rw [CommandLine.arguments_divide hdivided]
    exact hr.concat (.divider (hstands.ready hawaiting hdivided) rfl)

/-! ## Whatever is read is written so -/

/-- What a list of arguments that was read to its end can be. -/
inductive ReadFrom (arguments : List String) (r : Reading) : Prop
  /-- A whole command line. -/
  | line {c : CommandLine} (h : Stands c r) (hplain : c.IsPlain) (ha : c.arguments = arguments)
      (hawaiting : r.awaiting = none)
  /-- A command line, and behind it an option that waits for its value. -/
  | waiting {c : CommandLine} {option : OptionName} (h : Stands c r) (hplain : c.IsPlain)
      (hdivided : c.divided = none) (ha : c.arguments ++ ["--" ++ option.name] = arguments)
      (hawaiting : r.awaiting = some option) (hheld : r.here.held = none)
  /-- A request for help. -/
  | help (h : r.topic.isSome)

namespace ReadFrom

variable {c : CommandLine} {r s : Reading} {argument : String}

lemma of_addFile (h : Stands c r) (hplain : c.IsPlain) (hawaiting : r.awaiting = none)
    (hfile : r.setFile argument = .ok s)
    (hname : c.divided = none → (Part.file argument).IsPlain c.command.isSome) :
    ReadFrom (c.arguments ++ [argument]) s := by
  refine .line (h.setFile hfile) (CommandLine.isPlain_addFile_iff.2 ⟨hplain, hname⟩)
    (CommandLine.arguments_addFile argument) ?_
  rw [Reading.awaiting_setFile hfile, hawaiting]

lemma of_addOption {o : WrittenOption} (h : Stands (c.addPart (.option o)) s) (hplain : c.IsPlain)
    (hdivided : c.divided = none) (hawaiting : s.awaiting = none) :
    ReadFrom (c.arguments ++ o.arguments) s :=
  .line h (CommandLine.isPlain_addPart_iff.2 ⟨hplain, trivial⟩)
    (CommandLine.arguments_addPart hdivided _) hawaiting

/-- An argument behind a whole command line. -/
lemma of_line (h : Stands c r) (hplain : c.IsPlain) (hawaiting : r.awaiting = none)
    (hs : r.Takes argument s) : ReadFrom (c.arguments ++ [argument]) s := by
  cases hs with
  | topic htopic => simp [h.topic] at htopic
  | behind _ hdivided hfile =>
    refine of_addFile h hplain hawaiting hfile fun hnone => ?_
    simp [h.divided, hnone] at hdivided
  | value _ _ hsome => simp [hawaiting] at hsome
  | divider hr ha =>
    have hdivided := h.divided_eq_none hr.divided
    refine .line (h.divide hdivided) (CommandLine.isPlain_divide_iff.2 hplain) ?_ hawaiting
    rw [CommandLine.arguments_divide hdivided, ha]
  | @joined _ option value hr ha hset =>
    rw [ha]
    exact of_addOption (h.setOption (o := ⟨option, value, true⟩) hset) hplain
      (h.divided_eq_none hr.divided) (Reading.awaiting_setOption hset)
  | @name _ option hr ha hsettle =>
    have hheld := Reading.held_settle hsettle
    exact .waiting ((h.settle hsettle).setAwaiting (some option)) hplain
      (h.divided_eq_none hr.divided) (by rw [ha]) rfl hheld
  | command hr hnone ha =>
    have hdivided := h.divided_eq_none hr.divided
    have hcommand := h.command_eq_none hnone
    refine .line (h.addCommand hcommand hdivided _)
      ((CommandLine.isPlain_addCommand_iff hcommand).2 hplain) ?_ hawaiting
    rw [CommandLine.arguments_addCommand hcommand hdivided, ha]
  | help => exact .help rfl
  | file hr ha hname hfile =>
    refine of_addFile h hplain hawaiting hfile fun _ =>
      Part.isPlain_file_iff.2 ⟨ha, fun hcalled => hname ?_⟩
    rw [h.isSome_command] at hcalled
    simpa using hcalled

/-- An argument behind an option that waits: it is the value of that option. -/
lemma of_waiting (h : Stands c r) (hplain : c.IsPlain) (hdivided : c.divided = none)
    {option : OptionName} (hawaiting : r.awaiting = some option) (hheld : r.here.held = none)
    (hs : r.Takes argument s) :
    ReadFrom (c.arguments ++ ["--" ++ option.name] ++ [argument]) s := by
  obtain rfl := hs.eq_hold h.topic (by simp [h.divided, hdivided]) hawaiting
  rw [List.append_assoc]
  exact of_addOption (h.hold hheld ⟨option, argument, false⟩) hplain hdivided rfl

end ReadFrom

/-- **Whatever is read is written so.** A list of arguments that is read to its end is that of a
command line in which nothing is taken for something else, or it is one with an option that waits
behind it, or help is asked for.

**Proof sketch.** Induction on the arguments from behind, by cases on the way in which the last one
was read. -/
theorem readFrom_of_reads {arguments : List String} {r : Reading} (h : Reads arguments r) :
    ReadFrom arguments r := by
  induction arguments using List.reverseRecOn generalizing r with
  | nil =>
    cases h
    exact .line Stands.start ⟨by simp, by simp [CommandLine.inner]⟩ rfl rfl
  | append_singleton arguments argument ih =>
    obtain ⟨r, hr, hs⟩ := reads_concat_iff.1 h
    cases ih hr with
    | line h hplain ha hawaiting => exact ha ▸ ReadFrom.of_line h hplain hawaiting hs
    | waiting h hplain hdivided ha hawaiting hheld =>
      exact ha ▸ ReadFrom.of_waiting h hplain hdivided hawaiting hheld hs
    | help htopic => exact .help (hs.isSome_topic htopic)

end LoxLex
