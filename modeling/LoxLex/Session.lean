import LoxLex.Arguments
import LoxLex.ScanLog
import LoxLex.Text.WhiteSpace
import LoxLex.Transcript

set_option relaxedAutoImplicit false
set_option autoImplicit false

/-!
# Runs over a file and sessions at the prompt

Both print the tokens of a text to standard output and its errors to standard error. A file is
scanned as a whole. A session scans each line that is typed; a line that leaves a string open is
not reported, but kept until further lines have closed the string.

## Main definitions

* `LoxLex.fileTranscript` — the run over the contents of a file.
* `LoxLex.Session` — a session, with the lines that are kept.
* `LoxLex.Session.prompt`, `LoxLex.Session.feed`, `LoxLex.Session.close` — what is written before a
  line, what a line leads to, and what the end of the input leads to.
* `LoxLex.Session.transcript` — a whole session.
-/

namespace LoxLex

namespace Settings

/-- The part of a log that is shown. -/
def logOutputs (s : Settings) (records : List LogRecord) : List Output :=
  (s.verbosity.shown records).map Output.log

/-- The tokens of a text, each on a line of its own. -/
def tokenOutputs (s : Settings) (tokens : List Token) : List Output :=
  tokens.map fun t => .out (s.format.text t ++ "\n")

/-- The report of a text: its tokens, then its errors, each on a line of its own. -/
def scanOutputs (s : Settings) (r : Scan) : List Output :=
  s.tokenOutputs r.tokens ++ r.errors.map fun e => .err (e.message ++ "\n")

end Settings

/-- The run over a file with the given contents. The tokens are printed whether or not there are
errors; the errors end the run. -/
def fileTranscript (settings : Settings) (contents : Except IoError String) : Transcript :=
  match contents with
  | .error cause => ⟨[], some (.file cause)⟩
  | .ok source =>
    let scanned := scanLogged source
    ⟨settings.logOutputs scanned.records ++ settings.tokenOutputs scanned.value.tokens,
      if scanned.value.hasErrors then some (.lexing scanned.value.errors) else none⟩

/-- A session at the prompt. -/
structure Session where
  /-- How it prints. -/
  settings : Settings
  /-- The lines kept so far, empty if no string is open. -/
  pending : String
deriving DecidableEq

namespace Session

/-- The session at its start. -/
def start (settings : Settings) : Session := ⟨settings, ""⟩

/-- What asks for a line: the first one of a new input, or the next one of an open string. -/
def prompt (s : Session) : String :=
  if s.pending = "" then "> " else ". "

/-- Whether a line ends the session. Inside an open string no line does. -/
def isQuit (s : Session) (line : String) : Bool :=
  s.pending == "" && trimWhiteSpace line.toList == ":quit".toList

/-- What a line leads to: outputs and the session after it, or nothing if it ends the session. -/
def feed (s : Session) (line : String) : Option (List Output × Session) :=
  if s.isQuit line then none
  else
    let input := s.pending ++ line
    let scanned := scanLogged input
    let log := s.settings.logOutputs scanned.records
    if scanned.value.wantsMore then some (log, { s with pending := input })
    else some (log ++ s.settings.scanOutputs scanned.value, { s with pending := "" })

/-- What the end of the input leads to: the line of the prompt is ended, and what is still kept is
reported as it is. -/
def close (s : Session) : List Output :=
  .out "\n" ::
    if s.pending = "" then []
    else
      let scanned := scanLogged s.pending
      s.settings.logOutputs scanned.records ++ s.settings.scanOutputs scanned.value

/-- The session over the lines of an input. A line that cannot be read ends it. -/
def transcript (s : Session) : List (Except IoError String) → Transcript
  | [] => ⟨.out s.prompt :: s.close, none⟩
  | .error cause :: _ => ⟨[.out s.prompt], some (.stream cause)⟩
  | .ok line :: lines =>
    match s.feed line with
    | none => ⟨[.out s.prompt], none⟩
    | some (outputs, after) => (after.transcript lines).prepend (.out s.prompt :: outputs)

end Session

end LoxLex
