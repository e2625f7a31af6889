import LoxLex.RunError
import LoxLex.Log

set_option relaxedAutoImplicit false
set_option autoImplicit false

/-!
# Transcripts

A transcript is all that a run writes, in order, and the error that ended it if it did not succeed.

## Main definitions

* `LoxLex.Output` — a text for one of the streams, or a log record.
* `LoxLex.Transcript` — outputs and an outcome.
* `LoxLex.Transcript.stdout`, `stderr`, `exitStatus` — what is seen of a run from outside.
-/

namespace LoxLex

/-- Something that a run writes. -/
inductive Output where
  /-- A text on standard output. -/
  | out (text : String)
  /-- A text on standard error. -/
  | err (text : String)
  /-- A record of the log, which is a line on standard error. -/
  | log (record : LogRecord)
deriving DecidableEq

namespace Output

/-- What is written to standard output. -/
def stdout : Output → String
  | out text => text
  | err _ => ""
  | log _ => ""

/-- What is written to standard error. -/
def stderr : Output → String
  | out _ => ""
  | err text => text
  | log record => record.line ++ "\n"

/-- Whether anything is written to standard output. -/
def writesOut (o : Output) : Bool := o.stdout != ""

end Output

/-- All that a run writes, and the error that ended it. -/
structure Transcript where
  /-- What is written, the earliest first. -/
  outputs : List Output
  /-- The error that ended the run, none if it succeeded. -/
  failure : Option RunError
deriving DecidableEq

namespace Transcript

/-- Puts outputs in front of a transcript. -/
def prepend (outputs : List Output) (t : Transcript) : Transcript :=
  { t with outputs := outputs ++ t.outputs }

/-- The text on standard output. -/
def stdout (t : Transcript) : String := String.join (t.outputs.map Output.stdout)

/-- The text on standard error. The error that ended the run comes last. -/
def stderr (t : Transcript) : String :=
  String.join (t.outputs.map Output.stderr) ++
    match t.failure with
    | some error => error.message ++ "\n"
    | none => ""

/-- The status that the process exits with: zero if the run succeeded. -/
def exitStatus (t : Transcript) : UInt8 :=
  match t.failure with
  | some error => error.exitStatus
  | none => 0

end Transcript

end LoxLex
