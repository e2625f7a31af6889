import LoxLex.IoError
import LoxLex.LexError

set_option relaxedAutoImplicit false
set_option autoImplicit false

/-!
# Errors that end a run

Everything that can keep a run from succeeding, with the text that is reported and the status that
the process exits with.

## Main definitions

* `LoxLex.RunError` — the causes.
* `LoxLex.RunError.message`, `LoxLex.RunError.debugText` — their texts.
* `LoxLex.RunError.exitStatus` — their statuses.
-/

namespace LoxLex

/-- Why a run did not succeed. -/
inductive RunError where
  /-- The program was called in a way that it does not offer. -/
  | usage (message : String)
  /-- The source file could not be read. -/
  | file (cause : IoError)
  /-- A stream could not be read or written. -/
  | stream (cause : IoError)
  /-- The source text has errors. -/
  | lexing (errors : List LexError)
deriving DecidableEq

namespace RunError

/-- The report of an error. The errors of a text follow each other on lines of their own. -/
def message : RunError → String
  | usage message => "Usage: " ++ message
  | file cause => "Error reading source file: " ++ cause.message
  | stream cause => "I/O error: " ++ cause.message
  | lexing errors => "Errors when scanning:\n" ++ "\n".intercalate (errors.map LexError.message)

instance : ToString RunError := ⟨message⟩

/-- The debug text of an error. -/
def debugText : RunError → String
  | usage message => DebugNotation.wrap "UsageError" (DebugNotation.quoted message)
  | file cause => DebugNotation.wrap "FileError" cause.debugText
  | stream cause => DebugNotation.wrap "IoError" cause.debugText
  | lexing errors =>
    DebugNotation.wrap "LexingErrors" (DebugNotation.list (errors.map LexError.debugText))

/-- The status that the process exits with: the conventional ones for a wrong call, for wrong
input data, for missing input and for a failure of input or output. -/
def exitStatus : RunError → UInt8
  | usage _ => 64
  | lexing _ => 65
  | file _ => 66
  | stream _ => 74

/-- Whether more text could mend the error. -/
def wantsMore : RunError → Bool
  | lexing errors => LexError.listWantsMore errors
  | usage _ | file _ | stream _ => false

/-- The failure of input or output that lies behind an error. -/
def cause? : RunError → Option IoError
  | file cause => some cause
  | stream cause => some cause
  | usage _ | lexing _ => none

end RunError

end LoxLex
