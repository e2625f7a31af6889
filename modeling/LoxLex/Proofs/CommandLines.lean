import LoxLex.Proofs.ArgumentSteps
import Mathlib.Data.List.Induction
import Mathlib.Data.List.Nodup

set_option relaxedAutoImplicit false
set_option autoImplicit false

/-!
# Command lines as they are written

A command line is written down as options and files, then perhaps a command with options and files
of its own, then perhaps a divider with files behind it. Its options may be written in two ways,
and options and files may be mixed. The files behind the divider belong to the place where the
divider stands.

## Main definitions

* `LoxLex.WrittenOption`, `LoxLex.Part`, `LoxLex.CommandLine` — what is written.
* `LoxLex.CommandLine.arguments` — the arguments that a command line is written with.
* `LoxLex.Compatible` — options that may stand at one place.
* `LoxLex.CommandLine.WellWritten` — a command line in which everything is what it looks like, and
  whose options are given once at each place, with values that they have.
* `LoxLex.CommandLine.HasRoom` — a command line with no more files than are asked for.
* `LoxLex.CommandLine.NamesBoth`, `LoxLex.CommandLine.NamesNeither` — a source file and a command,
  or nothing of these, is named.

## Main results

* `LoxLex.exists_valuesOf_iff` — options have values just if they are compatible.
* `LoxLex.CommandLine.buildUp` — induction on a command line, from left to right.
-/

namespace LoxLex

/-! ## Options -/

namespace OptionName

/-- Whether an option has a value of that spelling. -/
def admits : OptionName → String → Bool
  | format, value => (TokenFormat.ofName? value).isSome
  | verbosity, value => (Verbosity.ofName? value).isSome

/-- No value that an option has looks like an option. -/
lemma ofArgument_of_admits {option : OptionName} {value : String}
    (h : option.admits value = true) : Word.ofArgument value = .plain := by
  rw [Word.ofArgument_eq_plain_iff]
  refine .inr ?_
  cases option with
  | format =>
    obtain ⟨format, hformat⟩ := Option.isSome_iff_exists.1 h
    unfold TokenFormat.ofName? at hformat
    split at hformat
    · decide
    · decide
    · cases hformat
  | verbosity =>
    obtain ⟨v, hv⟩ := Option.isSome_iff_exists.1 h
    have hname := List.find?_some hv
    rw [beq_iff_eq] at hname
    -- Case does not count in these values, and a hyphen is its own upper case.
    intro hhead
    have hupper : v.name.toList.head? = some '-' := by
      rw [hname, List.head?_map, hhead]
      rfl
    revert hupper
    rcases v with _ | _ | _ | _ | _ | _ <;> decide

end OptionName

namespace OptionValues

/-- A value is added where the option has it and has none yet. -/
lemma exists_set_eq_ok_iff {values : OptionValues} {option : OptionName} {value : String} :
    (∃ added, values.set option value = .ok added) ↔
      values.has option = false ∧ option.admits value = true := by
  cases option with
  | format =>
    cases hhas : values.format <;> cases hvalue : TokenFormat.ofName? value <;>
      simp [set, has, OptionName.admits, hhas, hvalue]
  | verbosity =>
    cases hhas : values.verbosity <;> cases hvalue : Verbosity.ofName? value <;>
      simp [set, has, OptionName.admits, hhas, hvalue]

/-- It is the value of that option and of no other one. -/
lemma has_of_set {values added : OptionValues} {option : OptionName} {value : String}
    (h : values.set option value = .ok added) (other : OptionName) :
    added.has other = true ↔ other = option ∨ values.has other = true := by
  cases option with
  | format =>
    rw [set] at h
    split at h
    · cases h
    · split at h
      · cases h
        cases other <;> simp [has]
      · cases h
  | verbosity =>
    rw [set] at h
    split at h
    · cases h
    · split at h
      · cases h
        cases other <;> simp [has]
      · cases h

end OptionValues

/-- An option as it is written. -/
structure WrittenOption where
  /-- The option. -/
  option : OptionName
  /-- What is written as its value. -/
  value : String
  /-- Whether an equals sign joins the two; else the value is an argument of its own. -/
  joined : Bool

/-- The arguments that an option is written with. -/
def WrittenOption.arguments (o : WrittenOption) : List String :=
  if o.joined then ["--" ++ o.option.name ++ "=" ++ o.value] else ["--" ++ o.option.name, o.value]

/-- The values of the options at one place, taken in one after the other. -/
def valuesOf (options : List WrittenOption) : Except ArgumentError OptionValues :=
  options.foldlM (fun values o => values.set o.option o.value) .none

/-- Options that may stand at one place. -/
structure Compatible (options : List WrittenOption) : Prop where
  /-- Each option has the value that is written. -/
  admitted : ∀ o ∈ options, o.option.admits o.value = true
  /-- No option is given twice. -/
  once : (options.map WrittenOption.option).Nodup

instance (options : List WrittenOption) : Decidable (Compatible options) :=
  decidable_of_iff ((∀ o ∈ options, o.option.admits o.value = true) ∧
    (options.map WrittenOption.option).Nodup) ⟨fun h => ⟨h.1, h.2⟩, fun h => ⟨h.1, h.2⟩⟩

section Options

variable {options : List WrittenOption} {o : WrittenOption} {values : OptionValues}

/-- A further option is compatible with others if it is another one and has its value. -/
lemma compatible_concat_iff :
    Compatible (options ++ [o]) ↔ Compatible options ∧
      o.option ∉ options.map WrittenOption.option ∧ o.option.admits o.value = true := by
  constructor
  · rintro ⟨hadmitted, honce⟩
    obtain ⟨hfront, hlast⟩ := List.forall_mem_append.1 hadmitted
    rw [List.map_append, List.map_singleton, ← List.concat_eq_append, List.nodup_concat] at honce
    exact ⟨⟨hfront, honce.2⟩, honce.1, hlast o (List.mem_singleton_self o)⟩
  · rintro ⟨hfront, hnew, hvalue⟩
    refine ⟨List.forall_mem_append.2 ⟨hfront.admitted, by simpa using hvalue⟩, ?_⟩
    rw [List.map_append, List.map_singleton, ← List.concat_eq_append, List.nodup_concat]
    exact ⟨hnew, hfront.once⟩

/-- A further option is added to the values of the others. -/
lemma valuesOf_concat (h : valuesOf options = .ok values) (o : WrittenOption) :
    valuesOf (options ++ [o]) = values.set o.option o.value := by
  rw [valuesOf] at h
  rw [valuesOf, List.foldlM_append, h]
  exact bind_pure (values.set o.option o.value)

lemma valuesOf_concat_eq_ok_iff : valuesOf (options ++ [o]) = .ok values ↔
    ∃ front, valuesOf options = .ok front ∧ front.set o.option o.value = .ok values :=
  foldlM_concat_eq_ok_iff

/-- The options that have values are those that are written. -/
lemma has_of_valuesOf (h : valuesOf options = .ok values) (option : OptionName) :
    values.has option = true ↔ option ∈ options.map WrittenOption.option := by
  induction options using List.reverseRecOn generalizing values with
  | nil =>
    cases h
    cases option <;> simp [OptionValues.has, OptionValues.none]
  | append_singleton options o ih =>
    obtain ⟨front, hfront, hset⟩ := valuesOf_concat_eq_ok_iff.1 h
    rw [OptionValues.has_of_set hset, ih hfront]
    simp [or_comm]

/-- Options have values just if they are compatible.

**Proof sketch.** Induction on the options from behind. The last one is taken in just if it has its
value and none of the others is the same option. -/
theorem exists_valuesOf_iff (options : List WrittenOption) :
    (∃ values, valuesOf options = .ok values) ↔ Compatible options := by
  induction options using List.reverseRecOn with
  | nil => exact ⟨fun _ => ⟨by simp, by simp⟩, fun _ => ⟨_, rfl⟩⟩
  | append_singleton options o ih =>
    rw [compatible_concat_iff, ← ih]
    have hnew : ∀ front, valuesOf options = .ok front →
        (front.has o.option = false ↔ o.option ∉ options.map WrittenOption.option) := by
      intro front hfront
      rw [← has_of_valuesOf hfront, Bool.not_eq_true]
    constructor
    · rintro ⟨values, h⟩
      obtain ⟨front, hfront, hset⟩ := valuesOf_concat_eq_ok_iff.1 h
      obtain ⟨hfree, hvalue⟩ := OptionValues.exists_set_eq_ok_iff.1 ⟨values, hset⟩
      exact ⟨⟨front, hfront⟩, (hnew front hfront).1 hfree, hvalue⟩
    · rintro ⟨⟨front, hfront⟩, hother, hvalue⟩
      obtain ⟨values, hset⟩ :=
        OptionValues.exists_set_eq_ok_iff.2 ⟨(hnew front hfront).2 hother, hvalue⟩
      exact ⟨values, valuesOf_concat_eq_ok_iff.2 ⟨front, hfront, hset⟩⟩

end Options

/-! ## Command lines -/

/-- A part of a command line. -/
inductive Part where
  /-- An option with its value. -/
  | option (o : WrittenOption)
  /-- The path of a file. -/
  | file (path : String)

namespace Part

/-- The arguments that a part is written with. -/
def arguments : Part → List String
  | option o => o.arguments
  | file path => [path]

/-- The option that a part is. -/
def option? : Part → Option WrittenOption
  | option o => some o
  | file _ => none

/-- The path that a part is. -/
def file? : Part → Option String
  | option _ => none
  | file path => some path

/-- A part is not taken for something else. A path does not look like an option, and before any
command it is none of the words that are read as commands there. -/
def IsPlain (called : Bool) : Part → Prop
  | option _ => True
  | file path =>
    (path = "-" ∨ path.toList.head? ≠ some '-') ∧
      (called = false → path ∉ ["tokenize", "repl", "help"])

instance (called : Bool) : (part : Part) → Decidable (part.IsPlain called)
  | option _ => .isTrue trivial
  | file _ => inferInstanceAs (Decidable (_ ∧ _))

/-- A path that is not taken for something else is read as a file. -/
lemma isPlain_file_iff {called : Bool} {path : String} :
    (file path).IsPlain called ↔ Word.ofArgument path = .plain ∧
      (called = false → Command.ofName? path = none ∧ path ≠ "help") := by
  rw [IsPlain, Word.ofArgument_eq_plain_iff, Command.ofName?_eq_none_iff]
  simp [and_assoc]

end Part

/-- The number of files that a command is given. -/
def Command.room : Command → Nat
  | tokenize => 1
  | repl => 0

/-- A command line as it is written. -/
structure CommandLine where
  /-- What stands before any command. -/
  outer : List Part
  /-- The command, and what stands behind it. -/
  command : Option (Command × List Part)
  /-- The paths behind a divider, if there is one. -/
  divided : Option (List String)

namespace CommandLine

section Contents

variable (c : CommandLine)

/-- The arguments that a command line is written with. -/
def arguments : List String :=
  c.outer.flatMap Part.arguments ++
    (c.command.elim [] fun (command, parts) => command.name :: parts.flatMap Part.arguments) ++
    c.divided.elim [] fun paths => "--" :: paths

/-- What stands behind the command. -/
def inner : List Part := c.command.elim [] Prod.snd

/-- The files that are named before any command. -/
def outerFiles : List String :=
  c.outer.filterMap Part.file? ++ if c.command.isSome then [] else c.divided.getD []

/-- The files that are named behind the command. -/
def innerFiles : List String :=
  c.inner.filterMap Part.file? ++ if c.command.isSome then c.divided.getD [] else []

/-- The options before any command. -/
def outerOptions : List WrittenOption := c.outer.filterMap Part.option?

/-- The options behind the command. -/
def innerOptions : List WrittenOption := c.inner.filterMap Part.option?

/-- The options at the place where a command line ends. -/
def lastOptions : List WrittenOption :=
  if c.command.isSome then c.innerOptions else c.outerOptions

/-- The command of a command line with what it is given, if that is complete. -/
def call? : Option CommandCall :=
  match c.command.map Prod.fst, c.innerFiles with
  | some .repl, [] => some .repl
  | some .tokenize, [path] => some (.tokenize path)
  | _, _ => none

/-- A command line that names a source file and a complete command. -/
def NamesBoth : Prop := c.outerFiles.length = 1 ∧ c.call?.isSome

/-- A command line that names neither a source file nor a command. -/
def NamesNeither : Prop := c.outerFiles = [] ∧ c.command = none

/-- A command line of which no part is taken for something else. -/
structure IsPlain : Prop where
  outer : ∀ part ∈ c.outer, part.IsPlain false
  inner : ∀ part ∈ c.inner, part.IsPlain true

/-- A command line of which no part is taken for something else, and whose options are given once
at each place, with values that they have. -/
structure WellWritten : Prop where
  plain : c.IsPlain
  outer : Compatible c.outerOptions
  inner : Compatible c.innerOptions

/-- A command line with no more files than are asked for. -/
structure HasRoom : Prop where
  outer : c.outerFiles.length ≤ 1
  inner : c.innerFiles.length ≤ (c.command.map Prod.fst).elim 0 Command.room

instance : Decidable c.NamesBoth := inferInstanceAs (Decidable (_ ∧ _))

instance : Decidable c.NamesNeither := inferInstanceAs (Decidable (_ ∧ _))

instance : Decidable c.IsPlain :=
  decidable_of_iff
    ((∀ part ∈ c.outer, part.IsPlain false) ∧ ∀ part ∈ c.inner, part.IsPlain true)
    ⟨fun h => ⟨h.1, h.2⟩, fun h => ⟨h.1, h.2⟩⟩

instance : Decidable c.WellWritten :=
  decidable_of_iff (c.IsPlain ∧ Compatible c.outerOptions ∧ Compatible c.innerOptions)
    ⟨fun h => ⟨h.1, h.2.1, h.2.2⟩, fun h => ⟨h.1, h.2, h.3⟩⟩

end Contents

/-! ## From left to right -/

section Operations

variable (c : CommandLine)

/-- A command line with a further part. -/
def addPart (part : Part) : CommandLine :=
  match c.command with
  | none => { c with outer := c.outer ++ [part] }
  | some (command, parts) => { c with command := some (command, parts ++ [part]) }

/-- A command line with a further file. -/
def addFile (path : String) : CommandLine :=
  match c.divided with
  | none => c.addPart (.file path)
  | some paths => { c with divided := some (paths ++ [path]) }

/-- A command line with a command. -/
def addCommand (command : Command) : CommandLine := { c with command := some (command, []) }

/-- A command line with a divider. -/
def divide : CommandLine := { c with divided := some [] }

/-- Every command line comes about from left to right: by options, files and a command, and by
files alone once it is divided. -/
theorem buildUp {P : CommandLine → Prop} (start : P ⟨[], none, none⟩)
    (option : ∀ c o, c.divided = none → P c → P (c.addPart (.option o)))
    (file : ∀ c path, P c → P (c.addFile path))
    (command : ∀ c command, c.command = none → c.divided = none → P c → P (c.addCommand command))
    (divide : ∀ c, c.divided = none → P c → P c.divide) : P c := by
  have part : ∀ (c : CommandLine) (p : Part), c.divided = none → P c → P (c.addPart p) := by
    intro c p hc h
    cases p with
    | option o => exact option c o hc h
    | file path => simpa [addFile, hc] using file c path h
  obtain ⟨outer, called, divided⟩ := c
  have houter : P ⟨outer, none, none⟩ := by
    induction outer using List.reverseRecOn with
    | nil => exact start
    | append_singleton parts p ih => exact part _ p rfl ih
  have hcalled : P ⟨outer, called, none⟩ := by
    rcases called with _ | ⟨name, parts⟩
    · exact houter
    · induction parts using List.reverseRecOn with
      | nil => exact command _ name rfl rfl houter
      | append_singleton parts p ih => exact part _ p rfl ih
  cases divided with
  | none => exact hcalled
  | some paths =>
    induction paths using List.reverseRecOn with
    | nil => exact divide _ rfl hcalled
    | append_singleton paths path ih => exact file _ path ih

end Operations

/-! ## What an operation adds -/

section Arguments

variable {c : CommandLine}

lemma arguments_addPart (h : c.divided = none) (part : Part) :
    (c.addPart part).arguments = c.arguments ++ part.arguments := by
  obtain ⟨outer, called, divided⟩ := c
  obtain rfl : divided = none := h
  cases called <;> simp [addPart, arguments]

lemma arguments_addFile (path : String) : (c.addFile path).arguments = c.arguments ++ [path] := by
  cases hdivided : c.divided with
  | none => simp [addFile, hdivided, arguments_addPart, Part.arguments]
  | some paths => simp [addFile, hdivided, arguments]

lemma arguments_addCommand (hcommand : c.command = none) (hdivided : c.divided = none)
    (command : Command) : (c.addCommand command).arguments = c.arguments ++ [command.name] := by
  simp [addCommand, arguments, hcommand, hdivided]

lemma arguments_divide (h : c.divided = none) : c.divide.arguments = c.arguments ++ ["--"] := by
  simp [divide, arguments, h]

end Arguments

section AddOption

variable (c : CommandLine) (o : WrittenOption)

@[simp] lemma command_addOption :
    (c.addPart (.option o)).command.map Prod.fst = c.command.map Prod.fst := by
  cases h : c.command <;> simp [addPart, h]

@[simp] lemma divided_addOption : (c.addPart (.option o)).divided = c.divided := by
  cases h : c.command <;> simp [addPart, h]

@[simp] lemma outerFiles_addOption : (c.addPart (.option o)).outerFiles = c.outerFiles := by
  cases h : c.command <;> simp [addPart, outerFiles, h, Part.file?]

@[simp] lemma innerFiles_addOption : (c.addPart (.option o)).innerFiles = c.innerFiles := by
  cases h : c.command <;> simp [addPart, innerFiles, inner, h, Part.file?]

/-- The option is one of the place where the command line ends. -/
@[simp] lemma outerOptions_addOption : (c.addPart (.option o)).outerOptions =
    if c.command.isSome then c.outerOptions else c.outerOptions ++ [o] := by
  cases h : c.command <;> simp [addPart, outerOptions, h, Part.option?]

@[simp] lemma innerOptions_addOption : (c.addPart (.option o)).innerOptions =
    if c.command.isSome then c.innerOptions ++ [o] else c.innerOptions := by
  cases h : c.command <;> simp [addPart, innerOptions, inner, h, Part.option?]

end AddOption

section AddFile

variable (c : CommandLine) (path : String)

@[simp] lemma command_addFile : (c.addFile path).command.map Prod.fst = c.command.map Prod.fst := by
  cases hd : c.divided <;> cases h : c.command <;> simp [addFile, addPart, h, hd]

@[simp] lemma divided_addFile : (c.addFile path).divided.isSome = c.divided.isSome := by
  cases hd : c.divided <;> cases h : c.command <;> simp [addFile, addPart, h, hd]

/-- The file is one of the place where the command line ends. -/
@[simp] lemma outerFiles_addFile : (c.addFile path).outerFiles =
    if c.command.isSome then c.outerFiles else c.outerFiles ++ [path] := by
  cases hd : c.divided <;> cases h : c.command <;>
    simp [addFile, addPart, outerFiles, h, hd, Part.file?]

@[simp] lemma innerFiles_addFile : (c.addFile path).innerFiles =
    if c.command.isSome then c.innerFiles ++ [path] else c.innerFiles := by
  cases hd : c.divided <;> cases h : c.command <;>
    simp [addFile, addPart, innerFiles, inner, h, hd, Part.file?]

@[simp] lemma outerOptions_addFile : (c.addFile path).outerOptions = c.outerOptions := by
  cases hd : c.divided <;> cases h : c.command <;>
    simp [addFile, addPart, outerOptions, h, hd, Part.option?]

@[simp] lemma innerOptions_addFile : (c.addFile path).innerOptions = c.innerOptions := by
  cases hd : c.divided <;> cases h : c.command <;>
    simp [addFile, addPart, innerOptions, inner, h, hd, Part.option?]

end AddFile

section AddCommand

variable {c : CommandLine}

/-- Without a command there is nothing behind it. -/
lemma innerFiles_eq_nil (h : c.command = none) : c.innerFiles = [] := by
  simp [innerFiles, inner, h]

lemma innerOptions_eq_nil (h : c.command = none) : c.innerOptions = [] := by
  simp [innerOptions, inner, h]

lemma outerFiles_addCommand (hcommand : c.command = none) (hdivided : c.divided = none)
    (command : Command) : (c.addCommand command).outerFiles = c.outerFiles := by
  simp [addCommand, outerFiles, hcommand, hdivided]

lemma innerFiles_addCommand (hdivided : c.divided = none) (command : Command) :
    (c.addCommand command).innerFiles = [] := by
  simp [addCommand, innerFiles, inner, hdivided]

/-- The divider is no file itself. -/
lemma outerFiles_divide (h : c.divided = none) : c.divide.outerFiles = c.outerFiles := by
  cases hcommand : c.command <;> simp [divide, outerFiles, h, hcommand]

lemma innerFiles_divide (h : c.divided = none) : c.divide.innerFiles = c.innerFiles := by
  cases hcommand : c.command <;> simp [divide, innerFiles, inner, h, hcommand]

end AddCommand

/-! ## What an operation needs -/

section Needs

variable {c : CommandLine} {part : Part} {o : WrittenOption} {path : String}

lemma isPlain_addPart_iff :
    (c.addPart part).IsPlain ↔ c.IsPlain ∧ part.IsPlain c.command.isSome := by
  obtain ⟨outer, called, divided⟩ := c
  constructor
  · rintro ⟨houter, hinner⟩
    cases called with
    | none =>
      obtain ⟨houter, hpart⟩ := List.forall_mem_append.1 houter
      exact ⟨⟨houter, hinner⟩, hpart part (List.mem_singleton_self part)⟩
    | some called =>
      obtain ⟨hinner, hpart⟩ := List.forall_mem_append.1 hinner
      exact ⟨⟨houter, hinner⟩, hpart part (List.mem_singleton_self part)⟩
  · rintro ⟨⟨houter, hinner⟩, hpart⟩
    cases called with
    | none => exact ⟨List.forall_mem_append.2 ⟨houter, by simpa using hpart⟩, hinner⟩
    | some called => exact ⟨houter, List.forall_mem_append.2 ⟨hinner, by simpa using hpart⟩⟩

/-- Behind the divider every path is a file. -/
lemma isPlain_addFile_iff :
    (c.addFile path).IsPlain ↔
      c.IsPlain ∧ (c.divided = none → (Part.file path).IsPlain c.command.isSome) := by
  rw [addFile]
  cases hdivided : c.divided with
  | none => simp [isPlain_addPart_iff]
  | some paths => exact ⟨fun h => ⟨⟨h.outer, h.inner⟩, by simp⟩, fun h => ⟨h.1.outer, h.1.inner⟩⟩

lemma isPlain_addCommand_iff (h : c.command = none) {command : Command} :
    (c.addCommand command).IsPlain ↔ c.IsPlain :=
  ⟨fun hc => ⟨hc.outer, by simp [inner, h]⟩, fun hc => ⟨hc.outer, by simp [inner, addCommand]⟩⟩

lemma isPlain_divide_iff : c.divide.IsPlain ↔ c.IsPlain :=
  ⟨fun h => ⟨h.outer, h.inner⟩, fun h => ⟨h.outer, h.inner⟩⟩

lemma WellWritten.last (h : c.WellWritten) : Compatible c.lastOptions := by
  rw [lastOptions]
  split
  · exact h.inner
  · exact h.outer

/-- An option is written well if it is compatible with those in front of it at the same place. -/
lemma WellWritten.of_addOption (h : (c.addPart (.option o)).WellWritten) :
    c.WellWritten ∧ Compatible (c.lastOptions ++ [o]) := by
  obtain ⟨hplain, houter, hinner⟩ := h
  have hfront := (isPlain_addPart_iff.1 hplain).1
  rw [outerOptions_addOption] at houter
  rw [innerOptions_addOption] at hinner
  rw [lastOptions]
  cases hcommand : c.command.isSome with
  | false =>
    simp only [hcommand, Bool.false_eq_true, if_false] at *
    exact ⟨⟨hfront, (compatible_concat_iff.1 houter).1, hinner⟩, houter⟩
  | true =>
    simp only [hcommand, if_true] at *
    exact ⟨⟨hfront, houter, (compatible_concat_iff.1 hinner).1⟩, hinner⟩

lemma WellWritten.of_addFile (h : (c.addFile path).WellWritten) : c.WellWritten :=
  ⟨(isPlain_addFile_iff.1 h.plain).1, by simpa using h.outer, by simpa using h.inner⟩

lemma WellWritten.of_addCommand {command : Command} (hcommand : c.command = none)
    (h : (c.addCommand command).WellWritten) : c.WellWritten :=
  ⟨(isPlain_addCommand_iff hcommand).1 h.plain, h.outer, innerOptions_eq_nil hcommand ▸ h.inner⟩

lemma WellWritten.of_divide (h : c.divide.WellWritten) : c.WellWritten :=
  ⟨isPlain_divide_iff.1 h.plain, h.outer, h.inner⟩

lemma HasRoom.of_addOption (h : (c.addPart (.option o)).HasRoom) : c.HasRoom :=
  ⟨by simpa using h.outer, by simpa using h.inner⟩

lemma HasRoom.of_addFile (h : (c.addFile path).HasRoom) : c.HasRoom := by
  obtain ⟨houter, hinner⟩ := h
  rw [outerFiles_addFile] at houter
  rw [innerFiles_addFile, command_addFile] at hinner
  cases hcommand : c.command.isSome <;> simp only [hcommand] at houter hinner
  · exact ⟨le_trans (by simp) houter, hinner⟩
  · exact ⟨houter, le_trans (by simp) hinner⟩

lemma HasRoom.of_addCommand {command : Command} (hcommand : c.command = none)
    (hdivided : c.divided = none) (h : (c.addCommand command).HasRoom) : c.HasRoom :=
  ⟨outerFiles_addCommand hcommand hdivided command ▸ h.outer,
    by simp [innerFiles_eq_nil hcommand]⟩

lemma HasRoom.of_divide (hdivided : c.divided = none) (h : c.divide.HasRoom) : c.HasRoom :=
  ⟨outerFiles_divide hdivided ▸ h.outer, innerFiles_divide hdivided ▸ h.inner⟩

end Needs

variable {c : CommandLine}

/-- A source file and a complete command are not too many files. -/
lemma NamesBoth.hasRoom (h : c.NamesBoth) : c.HasRoom := by
  obtain ⟨houter, hcall⟩ := h
  refine ⟨houter.le, ?_⟩
  rw [call?] at hcall
  split at hcall
  · rename_i hcommand hfiles
    simp [hcommand, hfiles]
  · rename_i hcommand hfiles
    simp [hcommand, hfiles, Command.room]
  · cases hcall

lemma NamesNeither.hasRoom (h : c.NamesNeither) : c.HasRoom :=
  ⟨by simp [h.1], by simp [innerFiles_eq_nil h.2]⟩

end CommandLine

end LoxLex
