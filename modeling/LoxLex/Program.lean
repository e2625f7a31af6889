import LoxLex.Console
import LoxLex.Encoding
import LoxLex.Session

set_option relaxedAutoImplicit false
set_option autoImplicit false

/-!
# The program

The whole program as a function: from its arguments, the environment, the files and the standard
input to what it writes and the status that it exits with.

## Main definitions

* `LoxLex.World` — what a run can read.
* `LoxLex.Plan` — a run, up to where it reads something.
* `LoxLex.Request.plan` — the run that answers a request.
* `LoxLex.runProgramOn` — the run of a command line on any console.
* `LoxLex.runProgram` — the run of a command line.
-/

namespace LoxLex

/-- What a run can read, and whether it can write. -/
structure World where
  /-- The environment. -/
  environment : Environment
  /-- The text of the file at a path. -/
  readFile : String → Except IoError String
  /-- The bytes of standard input. -/
  input : List UInt8
  /-- The cause for which every text on standard output is refused, if it is. -/
  stdoutFailure : Option IoError

/-- The console of a world. Standard error takes every text there. -/
def World.console (w : World) : Console := .ofFailure w.stdoutFailure

/-- The name and the version of the program. -/
def versionText : String := "lox-scanner 0.1.0\n"

/-- A run, up to where it reads something of its world. -/
inductive Plan where
  /-- The run reads nothing. -/
  | closed (transcript : Transcript)
  /-- The run prints a text, and does not mind if it is refused. -/
  | prints (text : Wording → String)
  /-- The run reads the file at a path, and goes on with what is found there. -/
  | readsFile (path : String) (next : Except IoError String → Transcript)
  /-- The run reads standard input, and goes on with its lines. -/
  | readsInput (next : List (Except IoError String) → Transcript)

/-- What is seen of the run on a console in a world, of which it is given what it reads and nothing
more. -/
def Plan.outcome (c : Console) (w : World) : Plan → Outcome
  | closed t => c.outcome t
  | prints text => ⟨0, c.out.offer "" [text c.wording], ""⟩
  | readsFile path next => c.outcome (next (w.readFile path))
  | readsInput next => c.outcome (next (readLines w.input))

/-- The run that answers a request. -/
def Request.plan : Request → Plan
  | .tokens path settings => .readsFile path (fileTranscript settings)
  | .session settings => .readsInput (Session.start settings).transcript
  | .refused error => .closed ⟨[], some error⟩
  | .version => .prints fun _ => versionText
  | .help => .prints Wording.help

/-- The run of a command line on a console, which need not be the one of the world. A command line
that is refused is reported on standard error. -/
def runProgramOn (c : Console) (arguments : List String) (w : World) : Outcome :=
  match Request.ofArguments arguments w.environment with
  | .ok request => request.plan.outcome c w
  | .error error => ⟨ArgumentError.exitStatus, "", c.err.offer "" [c.wording.refusal error]⟩

/-- The run of a command line. -/
def runProgram (arguments : List String) (w : World) : Outcome :=
  runProgramOn w.console arguments w

end LoxLex
