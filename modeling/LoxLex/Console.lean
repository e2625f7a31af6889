import LoxLex.Transcript
import LoxLex.Wording

set_option relaxedAutoImplicit false
set_option autoImplicit false

/-!
# Consoles

A process writes to standard output and to standard error, and either of them may refuse a text.
What comes of that depends on the text. A text of the program that is refused ends the run, and the
cause is reported like any other error. A record of the log that is refused is a crash, and so is a
report on the error that ends a run: nothing is left then to which the cause could be told.

## Main definitions

* `LoxLex.Device` — a stream that may refuse texts.
* `LoxLex.Device.offer` — what a stream takes if nobody minds what it refuses.
* `LoxLex.Console` — the streams of a process.
* `LoxLex.Interruption` — what a refused output leads to.
* `LoxLex.Outcome` — what is seen of a run.
* `LoxLex.Console.run`, `LoxLex.Console.outcome` — a run on a console.
-/

namespace LoxLex

/-! ## Streams -/

/-- How a stream takes texts. Given all that it took before and the next text, it takes that text,
or it takes a part of it and refuses the rest for a cause. -/
def Device := String → String → Option (String × IoError)

namespace Device

/-- The device that refuses every text for the given cause, or takes every text if there is none. -/
def ofFailure : Option IoError → Device
  | none => fun _ _ => none
  | some cause => fun _ _ => some ("", cause)

/-- What a device takes of a text, and why it refuses the rest. There is nothing to refuse of the
empty text. -/
def refusal? (d : Device) (taken text : String) : Option (String × IoError) :=
  if text = "" then none else d taken text

/-- All that a device has taken once some texts were given to it, whether it refused one or not. -/
def offer (d : Device) : String → List String → String
  | taken, [] => taken
  | taken, text :: others =>
    match d.refusal? taken text with
    | none => d.offer (taken ++ text) others
    | some (part, _) => d.offer (taken ++ part) others

end Device

/-- The streams of a process, and the words of those who write to them beside the program. What a
stream refuses depends on what this stream took before, and not on the other one. -/
structure Console where
  /-- Standard output. -/
  out : Device
  /-- Standard error. -/
  err : Device
  /-- The texts that are not the program's own. -/
  wording : Wording

/-- The console on which standard output refuses every text for the given cause, if there is one. -/
def Console.ofFailure (failure : Option IoError) : Console :=
  ⟨.ofFailure failure, .ofFailure none, .plain⟩

/-! ## Runs on a console -/

/-- What a refused output leads to. -/
inductive Interruption where
  /-- The run ends in an error. -/
  | failed (error : RunError)
  /-- The process crashes. -/
  | crashed (cause : IoError)
deriving DecidableEq

/-- What it leads to that an output is refused. -/
def Output.interruption : Output → IoError → Interruption
  | out _, cause | err _, cause => .failed (.stream cause)
  | log _, cause => .crashed cause

/-- What is seen of a run. -/
structure Outcome where
  /-- The status that the process exits with. -/
  exit : UInt8
  /-- The text on standard output. -/
  stdout : String
  /-- The text on standard error. -/
  stderr : String
deriving DecidableEq

namespace Outcome

/-- What is seen of a transcript if all its texts are taken. -/
def ofTranscript (t : Transcript) : Outcome := ⟨t.exitStatus, t.stdout, t.stderr⟩

end Outcome

/-- The status that a process exits with when it crashes. -/
def crashStatus : UInt8 := 101

namespace Console

variable (c : Console)

/-- A crash, behind what the streams took before. Its report is lost where it is refused. -/
def crash (printed reported : String) (cause : IoError) : Outcome :=
  ⟨crashStatus, printed, c.err.offer reported (c.wording.crash cause)⟩

/-- The end of a run, with the report on the error that ended it. -/
def conclude (printed reported : String) : Option RunError → Outcome
  | none => ⟨0, printed, reported⟩
  | some error =>
    match c.err.refusal? reported (error.message ++ "\n") with
    | none => ⟨error.exitStatus, printed, reported ++ (error.message ++ "\n")⟩
    | some (part, cause) => c.crash printed (reported ++ part) cause

/-- The end of a run in which an output is refused. -/
def interrupt (printed reported : String) : Interruption → Outcome
  | .failed error => c.conclude printed reported (some error)
  | .crashed cause => c.crash printed reported cause

/-- The rest of a run, behind what the streams took before: the outputs are written one after the
other until one is refused. -/
def run (failure : Option RunError) : String → String → List Output → Outcome
  | printed, reported, [] => c.conclude printed reported failure
  | printed, reported, o :: others =>
    match c.out.refusal? printed o.stdout, c.err.refusal? reported o.stderr with
    | some (part, cause), _ => c.interrupt (printed ++ part) reported (o.interruption cause)
    | none, some (part, cause) => c.interrupt printed (reported ++ part) (o.interruption cause)
    | none, none => run failure (printed ++ o.stdout) (reported ++ o.stderr) others

/-- What is seen of a run. -/
def outcome (t : Transcript) : Outcome := c.run t.failure "" "" t.outputs

end Console

end LoxLex
