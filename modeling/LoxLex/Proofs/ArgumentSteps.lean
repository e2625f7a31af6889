import LoxLex.Arguments
import LoxLex.Failure
import Mathlib.Data.List.TakeWhile
import Mathlib.Tactic.Lemma

set_option relaxedAutoImplicit false
set_option autoImplicit false

/-!
# The steps of reading a command line

An argument is read by its shape, by what was read before it, and by what is held back where the
reading stands. Most combinations end the reading. This module lists the others: nine ways in which
the reading goes on, each with all that it asks for and with the reading that it leads to. What is
proved about command lines goes through this list, and no other module opens `Reading.step`.

## Main definitions

* `LoxLex.Reading.Ready` — nothing that was read restricts the next argument.
* `LoxLex.Reading.Takes` — the ways in which an argument is read and the reading goes on.

## Main results

* `LoxLex.Word.ofArgument_eq_plain_iff`, `LoxLex.Word.eq_of_ofArgument_eq_long` — which arguments
  have a shape.
* `LoxLex.Reading.setOption_eq_ok_iff`, `LoxLex.Reading.setFile_eq_ok_iff`,
  `LoxLex.Reading.readOption_eq_ok_iff` — what the readers of options and files ask for.
* `LoxLex.Reading.step_eq_ok_iff` — a step is made just if it is one of the list.
-/

namespace LoxLex

/-! ## Shapes of arguments -/

namespace Word

/-- The plain arguments are those that no hyphen begins, and the hyphen alone. -/
lemma ofArgument_eq_plain_iff {argument : String} :
    ofArgument argument = .plain ↔ argument = "-" ∨ argument.toList.head? ≠ some '-' := by
  rw [← String.toList_inj, show "-".toList = ['-'] from rfl, ofArgument]
  generalize argument.toList = text
  match text with
  | [] => simp
  | [ch] => by_cases hch : ch = '-' <;> simp [hch]
  | ch :: ch' :: text =>
    by_cases hch : ch = '-'
    · by_cases hch' : ch' = '-'
      · subst hch hch'
        cases text with
        | nil => simp
        | cons d text =>
          simp only
          split <;> simp
      · simp [hch, hch']
    · simp [hch]

/-- The divider is one argument. -/
lemma ofArgument_eq_divider_iff {argument : String} :
    ofArgument argument = .divider ↔ argument = "--" := by
  rw [← String.toList_inj, show "--".toList = ['-', '-'] from rfl, ofArgument]
  split
  · simp_all
  · split <;> simp_all
  · simp_all
  · simp_all

/-- What an argument with a name consists of. -/
lemma eq_of_ofArgument_eq_long {argument name : String} {value : Option String}
    (h : ofArgument argument = .long name value) :
    argument = "--" ++ name ++ value.elim "" ("=" ++ ·) := by
  rw [ofArgument] at h
  split at h
  · cases h
  · rename_i text _ htext
    have hcut := List.takeWhile_append_dropWhile (p := (· != '=')) (l := text)
    rw [← String.toList_inj, htext]
    split at h
    · rename_i hnil
      cases h
      simpa [hnil] using hcut.symm
    · rename_i ch behind hbehind
      have hstop := List.head?_dropWhile_not (· != '=') text
      cases h
      rw [hbehind] at hcut hstop
      obtain rfl : ch = '=' := by simpa using hstop
      simpa using hcut.symm
  · cases h
  · cases h

end Word

namespace OptionName

/-- An option is found by its name. -/
lemma ofName?_eq_some_iff {text : String} {option : OptionName} :
    ofName? text = some option ↔ text = option.name := by
  constructor
  · intro h
    rw [ofName?] at h
    have hname := List.find?_some h
    rw [beq_iff_eq] at hname
    exact hname.symm
  · rintro rfl
    cases option <;> rfl

/-- The shape of an option whose value is the next argument. -/
lemma ofArgument_name (option : OptionName) :
    Word.ofArgument ("--" ++ option.name) = .long option.name none := by
  cases option <;> decide +kernel

/-- The shape of an option that is written with its value. -/
lemma ofArgument_name_append (option : OptionName) (value : String) :
    Word.ofArgument ("--" ++ option.name ++ "=" ++ value) = .long option.name (some value) := by
  cases option <;> simp [Word.ofArgument, name]

end OptionName

namespace Command

/-- The name of a command. -/
def name : Command → String
  | tokenize => "tokenize"
  | repl => "repl"

/-- A command is found by its name. -/
lemma ofName?_eq_some_iff {text : String} {command : Command} :
    ofName? text = some command ↔ text = command.name := by
  constructor
  · intro h
    unfold ofName? at h
    split at h <;> cases h <;> rfl
  · rintro rfl
    cases command <;> rfl

/-- Any other word names none. -/
lemma ofName?_eq_none_iff {text : String} :
    ofName? text = none ↔ text ≠ "tokenize" ∧ text ≠ "repl" := by
  simp only [Option.eq_none_iff_forall_ne_some, ne_eq, ofName?_eq_some_iff]
  constructor
  · exact fun h => ⟨h tokenize, h repl⟩
  · rintro ⟨htokenize, hrepl⟩ command
    cases command
    · exact htokenize
    · exact hrepl

/-- The name of a command has the shape of a file. -/
lemma ofArgument_name (command : Command) : Word.ofArgument command.name = .plain := by
  cases command <;> decide +kernel

end Command

namespace Reading

/-! ## The place where the reading stands -/

section Here

variable (r : Reading) (p q : PlaceOptions)

@[simp] lemma setHere_command : (r.setHere p).command = r.command := by
  rw [setHere]
  split <;> rfl

@[simp] lemma setHere_outerFile : (r.setHere p).outerFile = r.outerFile := by
  rw [setHere]
  split <;> rfl

@[simp] lemma setHere_innerFile : (r.setHere p).innerFile = r.innerFile := by
  rw [setHere]
  split <;> rfl

@[simp] lemma setHere_awaiting : (r.setHere p).awaiting = r.awaiting := by
  rw [setHere]
  split <;> rfl

@[simp] lemma setHere_divided : (r.setHere p).divided = r.divided := by
  rw [setHere]
  split <;> rfl

@[simp] lemma setHere_topic : (r.setHere p).topic = r.topic := by
  rw [setHere]
  split <;> rfl

/-- The options of the other place stay as they are. -/
lemma outer_setHere : (r.setHere p).outer = if r.command.isSome then r.outer else p := by
  cases hcommand : r.command <;> simp [setHere, hcommand]

lemma inner_setHere : (r.setHere p).inner = if r.command.isSome then p else r.inner := by
  cases hcommand : r.command <;> simp [setHere, hcommand]

lemma here_eq : r.here = if r.command.isSome then r.inner else r.outer := by
  cases hcommand : r.command <;> simp [here, hcommand]

@[simp] lemma here_setHere : (r.setHere p).here = p := by
  rw [here_eq, setHere_command, inner_setHere, outer_setHere]
  split <;> rfl

@[simp] lemma setHere_setHere : (r.setHere p).setHere q = r.setHere q := by
  cases hcommand : r.command <;> simp [setHere, hcommand]

@[simp] lemma here_hold (option : OptionName) (value : String) :
    (r.hold option value).here = ⟨r.here.values, some (option, value)⟩ :=
  here_setHere r _

@[simp] lemma setHere_hold (option : OptionName) (value : String) :
    (r.hold option value).setHere p = { r.setHere p with awaiting := none } := by
  cases hcommand : r.command <;> simp [setHere, hold, hcommand]

end Here

/-! ## What the readers ask for -/

section Readers

variable {r s : Reading} {argument name value path : String} {option : OptionName}

/-- The value that is held back has to be one of its option. -/
lemma settle_eq_ok_iff :
    r.settle = .ok s ↔ ∃ values, r.here.settle = .ok values ∧ s = r.setHere ⟨values, none⟩ := by
  rw [settle]
  cases hvalues : r.here.settle <;> simp [eq_comm]

/-- An option with its value comes behind the one that is held back. -/
lemma setOption_eq_ok_iff :
    r.setOption option value = .ok s ↔
      ∃ values added, r.here.settle = .ok values ∧ values.set option value = .ok added ∧
        s = { r.setHere ⟨added, none⟩ with awaiting := none } := by
  simp only [setOption, bind_eq_ok_iff, settle_eq_ok_iff]
  constructor
  · rintro ⟨_, ⟨values, hvalues, rfl⟩, added, hadded, rfl⟩
    exact ⟨values, added, hvalues, by simpa [PlaceOptions.settle] using hadded, by simp⟩
  · rintro ⟨values, added, hvalues, hadded, rfl⟩
    exact ⟨_, ⟨values, hvalues, rfl⟩, added, by simpa [PlaceOptions.settle] using hadded, by simp⟩

/-- A file needs a place that has none yet. -/
lemma setFile_eq_ok_iff :
    r.setFile path = .ok s ↔ ∃ settled, r.settle = .ok settled ∧
      (r.command = none ∧ r.outerFile = none ∧ s = { settled with outerFile := some path } ∨
        r.command = some .tokenize ∧ r.innerFile = none ∧
          s = { settled with innerFile := some path }) := by
  simp only [setFile, bind_eq_ok_iff]
  refine exists_congr fun settled => and_congr_right fun hsettled => ?_
  obtain ⟨values, -, rfl⟩ := settle_eq_ok_iff.1 hsettled
  simp only [setHere_command, setHere_outerFile, setHere_innerFile]
  rcases hcommand : r.command with _ | _ | _
  · cases hfile : r.outerFile <;> simp [eq_comm]
  · cases hfile : r.innerFile <;> simp [eq_comm]
  · simp

/-- Once the value that is held back is taken in, none is. -/
lemma held_settle (h : r.settle = .ok s) : s.here.held = none := by
  obtain ⟨values, -, rfl⟩ := settle_eq_ok_iff.1 h
  rw [here_setHere]

lemma divided_settle (h : r.settle = .ok s) : s.divided = r.divided := by
  obtain ⟨values, -, rfl⟩ := settle_eq_ok_iff.1 h
  rw [setHere_divided]

lemma awaiting_settle (h : r.settle = .ok s) : s.awaiting = r.awaiting := by
  obtain ⟨values, -, rfl⟩ := settle_eq_ok_iff.1 h
  rw [setHere_awaiting]

/-- A file leaves no option waiting that did not wait before. -/
lemma awaiting_setFile (h : r.setFile path = .ok s) : s.awaiting = r.awaiting := by
  obtain ⟨settled, hsettled, hcases⟩ := setFile_eq_ok_iff.1 h
  rw [← awaiting_settle hsettled]
  rcases hcases with ⟨-, -, rfl⟩ | ⟨-, -, rfl⟩ <;> rfl

/-- An option with its value leaves none waiting. -/
lemma awaiting_setOption (h : r.setOption option value = .ok s) : s.awaiting = none := by
  obtain ⟨values, added, -, -, rfl⟩ := setOption_eq_ok_iff.1 h
  rfl

/-- A request for the version or for help ends the reading. -/
lemma haltWith_ne_ok {halt : Halt} : r.haltWith halt ≠ .ok s := by
  simp [haltWith, bind_eq_ok_iff]

/-- So does every option of one letter. -/
lemma readLetter_ne_ok {letter : Char} : r.readLetter argument letter ≠ .ok s := by
  rw [readLetter]
  split
  · exact haltWith_ne_ok
  · split
    · exact haltWith_ne_ok
    · simp

/-- An option that is known is read, with its value or to wait for it. -/
lemma readOption_eq_ok_iff {value : Option String} :
    r.readOption argument name value = .ok s ↔ ∃ option : OptionName, name = option.name ∧
      ((∃ text, value = some text ∧ r.setOption option text = .ok s) ∨
        value = none ∧
          ∃ settled, r.settle = .ok settled ∧ s = { settled with awaiting := some option }) := by
  simp only [← OptionName.ofName?_eq_some_iff]
  unfold readOption
  cases OptionName.ofName? name <;> cases value
  · simp only [reduceCtorEq, false_and, exists_false, iff_false]
    split
    · exact haltWith_ne_ok
    · split
      · exact haltWith_ne_ok
      · simp
  · simp
  · simp only [bind_eq_ok_iff, pure_eq_ok]
    simp [eq_comm]
  · simp

end Readers

/-! ## Steps -/

/-- The next argument may be any: no help is asked for, no divider was read, and no option waits for
its value. -/
structure Ready (r : Reading) : Prop where
  topic : r.topic = none
  divided : r.divided = false
  awaiting : r.awaiting = none

/-- The ways in which an argument is read and the reading goes on. -/
inductive Takes (r : Reading) (argument : String) : Reading → Prop
  /-- Behind the word `help`, what help is asked for. -/
  | topic (htopic : r.topic = some .program)
      (ha : (Command.ofName? argument).isSome ∨ argument = "help") :
    Takes r argument { r with topic := some .command }
  /-- Behind the divider, a file. -/
  | behind {s : Reading} (htopic : r.topic = none) (hdivided : r.divided = true)
      (h : r.setFile argument = .ok s) : Takes r argument s
  /-- The value that an option waits for. -/
  | value {option : OptionName} (htopic : r.topic = none) (hdivided : r.divided = false)
      (hawaiting : r.awaiting = some option) (ha : Word.ofArgument argument = .plain) :
    Takes r argument (r.hold option argument)
  /-- The divider. -/
  | divider (hr : r.Ready) (ha : argument = "--") : Takes r argument { r with divided := true }
  /-- An option that is written with its value. -/
  | joined {s : Reading} {option : OptionName} {value : String} (hr : r.Ready)
      (ha : argument = "--" ++ option.name ++ "=" ++ value)
      (h : r.setOption option value = .ok s) : Takes r argument s
  /-- An option that waits for its value. -/
  | name {s : Reading} {option : OptionName} (hr : r.Ready) (ha : argument = "--" ++ option.name)
      (h : r.settle = .ok s) : Takes r argument { s with awaiting := some option }
  /-- A command. -/
  | command {command : Command} (hr : r.Ready) (hnone : r.command = none)
      (ha : argument = command.name) : Takes r argument { r with command := some command }
  /-- The word `help`. -/
  | help (hr : r.Ready) (hnone : r.command = none) (ha : argument = "help") :
    Takes r argument { r with topic := some .program }
  /-- A file. Before any command it is not the name of one. -/
  | file {s : Reading} (hr : r.Ready) (ha : Word.ofArgument argument = .plain)
      (hname : r.command = none → Command.ofName? argument = none ∧ argument ≠ "help")
      (h : r.setFile argument = .ok s) : Takes r argument s

variable {r s : Reading} {argument : String}

/-- Where the next argument may be any, its shape decides. -/
lemma Ready.step_eq (h : r.Ready) (argument : String) :
    r.step argument =
      match Word.ofArgument argument with
      | .divider => .ok { r with divided := true }
      | .long name value => r.readOption argument name value
      | .short letter => r.readLetter argument letter
      | .plain => r.readPlain argument := by
  rw [step, h.topic, h.divided, h.awaiting]
  cases Word.ofArgument argument <;> rfl

/-- What is read as a command or a file. -/
private lemma takes_of_readPlain (hr : r.Ready) (ha : Word.ofArgument argument = .plain)
    (h : r.readPlain argument = .ok s) : Takes r argument s := by
  rw [readPlain] at h
  split at h
  · rename_i hnone
    split at h
    · rename_i command hcommand
      cases h
      exact .command hr hnone (Command.ofName?_eq_some_iff.1 hcommand)
    · rename_i hunknown
      split at h
      · rename_i hhelp
        cases h
        exact .help hr hnone hhelp
      · rename_i hhelp
        exact .file hr ha (fun _ => ⟨hunknown, hhelp⟩) h
  · rename_i hcalled
    exact .file hr ha (fun hnone => absurd hnone hcalled) h

/-- What is read where the next argument may be any. -/
private lemma takes_of_ready (hr : r.Ready) (h : r.step argument = .ok s) :
    Takes r argument s := by
  rw [hr.step_eq] at h
  cases ha : Word.ofArgument argument with
  | divider =>
    simp only [ha] at h
    cases h
    exact .divider hr (Word.ofArgument_eq_divider_iff.1 ha)
  | long name value =>
    simp only [ha] at h
    have hargument := Word.eq_of_ofArgument_eq_long ha
    obtain ⟨option, rfl, ⟨text, rfl, hset⟩ | ⟨rfl, settled, hsettled, rfl⟩⟩ :=
      readOption_eq_ok_iff.1 h
    · exact .joined hr (by simpa [String.append_assoc] using hargument) hset
    · exact .name hr (by simpa using hargument) hsettled
  | short letter =>
    simp only [ha] at h
    exact absurd h readLetter_ne_ok
  | plain =>
    simp only [ha] at h
    exact takes_of_readPlain hr ha h

/-- Each step that is made is one of the list. -/
lemma takes_of_step (h : r.step argument = .ok s) : Takes r argument s := by
  cases htopic : r.topic with
  | some topic =>
    simp only [step, htopic, readTopic] at h
    split at h
    · rename_i hnamed
      obtain ⟨rfl, ha⟩ := hnamed
      cases h
      exact .topic htopic ha
    · cases h
  | none =>
    cases hdivided : r.divided with
    | true =>
      simp only [step, htopic, hdivided, if_true] at h
      exact .behind htopic hdivided h
    | false =>
      cases hawaiting : r.awaiting with
      | none => exact takes_of_ready ⟨htopic, hdivided, hawaiting⟩ h
      | some option =>
        simp only [step, htopic, hdivided, hawaiting] at h
        cases ha : Word.ofArgument argument with
        | plain =>
          simp only [ha] at h
          cases h
          exact .value htopic hdivided hawaiting ha
        | divider => simp [ha] at h
        | long => simp [ha] at h
        | short => simp [ha] at h

/-- Each of the list is made. -/
lemma Takes.step_eq (h : Takes r argument s) : r.step argument = .ok s := by
  cases h with
  | topic htopic ha => simp [step, htopic, readTopic, ha]
  | behind htopic hdivided h => simp [step, htopic, hdivided, h]
  | value htopic hdivided hawaiting ha => simp [step, htopic, hdivided, hawaiting, ha]
  | divider hr ha => simp [hr.step_eq, Word.ofArgument_eq_divider_iff.2 ha]
  | joined hr ha h =>
    rw [hr.step_eq, ha, OptionName.ofArgument_name_append]
    exact readOption_eq_ok_iff.2 ⟨_, rfl, .inl ⟨_, rfl, h⟩⟩
  | name hr ha h =>
    rw [hr.step_eq, ha, OptionName.ofArgument_name]
    exact readOption_eq_ok_iff.2 ⟨_, rfl, .inr ⟨rfl, _, h, rfl⟩⟩
  | @command command hr hnone ha =>
    subst ha
    have hname : Command.ofName? command.name = some command :=
      Command.ofName?_eq_some_iff.2 rfl
    simp [hr.step_eq, Command.ofArgument_name, readPlain, hnone, hname]
  | help hr hnone ha =>
    have hplain : Word.ofArgument "help" = .plain := by decide +kernel
    simp [hr.step_eq, ha, hplain, readPlain, hnone, Command.ofName?]
  | file hr ha hname h =>
    rw [hr.step_eq, ha]
    simp only [readPlain]
    split
    · rename_i hnone
      simp [hname hnone, h]
    · exact h

/-- **The steps of a reading.** The reading goes on behind an argument just if the argument is read
in one of the listed ways. -/
theorem step_eq_ok_iff : r.step argument = .ok s ↔ Takes r argument s :=
  ⟨takes_of_step, Takes.step_eq⟩

namespace Takes

/-- Help that is asked for stays so. -/
lemma isSome_topic (h : Takes r argument s) (htopic : r.topic.isSome) : s.topic.isSome := by
  cases h with
  | topic | help => rfl
  | behind hnone | value hnone => simp [hnone] at htopic
  | divider hr | joined hr | name hr | command hr | file hr => simp [hr.topic] at htopic

/-- An option that waits is given the next argument as its value. -/
lemma eq_hold (h : Takes r argument s) (htopic : r.topic = none) (hdivided : r.divided = false)
    {option : OptionName} (hawaiting : r.awaiting = some option) : s = r.hold option argument := by
  have hready : ¬ r.Ready := fun hr => by simp [hr.awaiting] at hawaiting
  cases h with
  | topic hsome => simp [htopic] at hsome
  | behind _ htrue => simp [hdivided] at htrue
  | value _ _ hsome =>
    obtain rfl := Option.some.inj (hawaiting.symm.trans hsome)
    rfl
  | divider hr | joined hr | name hr | command hr | help hr | file hr => exact absurd hr hready

end Takes

end Reading

end LoxLex
