import LoxLex.Program

set_option relaxedAutoImplicit false
set_option autoImplicit false

/-!
# The command line

The program on the real streams and files. Everything that is decided here is decided by the pure
functions; this module reads, writes and exits.

## Main definitions

* `LoxLex.converse` — a session at the prompt, line by line.
* `main` — the program.
-/

namespace LoxLex

/-- Whether a failure has a given number, which some operations report negated. -/
def hasCode (reported code : UInt32) : Bool := reported == code || reported == 0 - code

/-- A failure that the system reports, as far as the program tells failures apart. -/
def IoError.ofSystem : IO.Error → IoError
  | .noFileOrDirectory .. => .noSuchFile
  | .inappropriateType _ code details =>
    if hasCode code 20 then .notADirectory
    else if hasCode code 21 then .isADirectory
    else .fixed .other details
  | .permissionDenied .. => .system 13 .permissionDenied "Permission denied"
  | .resourceExhausted _ code details =>
    if hasCode code 28 then .noSpaceLeft else .fixed .other details
  | .resourceVanished code details =>
    if hasCode code 32 then .system 32 .brokenPipe "Broken pipe" else .fixed .other details
  | other => .fixed .other (toString other)

/-- The text of the file at a path. -/
def readTextFile (path : String) : IO (Except IoError String) := do
  if path = "" then return .error .noSuchFile
  try
    return decodeText (← IO.FS.readBinFile path).toList
  catch e => return .error (.ofSystem e)

/-- Writes one output, and says what follows if it is refused. -/
def writeOutput (o : Output) : IO (Option Interruption) := do
  try
    if o.writesOut then
      let stdout ← IO.getStdout
      stdout.putStr o.stdout
      stdout.flush
    else IO.eprint o.stderr
    return none
  catch e => return some (o.interruption (.ofSystem e))

/-- Writes outputs one after the other until one is refused. -/
def writeOutputs : List Output → IO (Option Interruption)
  | [] => return none
  | o :: others => do
    match ← writeOutput o with
    | some interruption => return some interruption
    | none => writeOutputs others

/-- Writes texts to standard error, whether it takes them or not. -/
def offerTexts : List String → IO Unit
  | [] => return
  | text :: others => do
    try IO.eprint text
    catch _ => pure ()
    offerTexts others

/-- Ends the process in a crash, and gives the status to exit with. -/
def crash (cause : IoError) : IO UInt32 := do
  offerTexts (Wording.plain.crash cause)
  return crashStatus.toUInt32

/-- Reports the error that ended a run, and gives the status to exit with. -/
def conclude (failure : Option RunError) : IO UInt32 := do
  let t : Transcript := ⟨[], failure⟩
  try
    IO.eprint t.stderr
    return t.exitStatus.toUInt32
  catch e => crash (.ofSystem e)

/-- Ends a run in which an output was refused. -/
def interrupt : Interruption → IO UInt32
  | .failed error => conclude (some error)
  | .crashed cause => crash cause

/-- Writes a transcript. -/
def perform (t : Transcript) : IO UInt32 := do
  match ← writeOutputs t.outputs with
  | some interruption => interrupt interruption
  | none => conclude t.failure

/-- Prints a text, whether it is taken or not. -/
def say (text : String) : IO UInt32 := do
  let _ ← writeOutput (.out text)
  return 0

/-- The bytes of a stream up to a newline or its end, behind those already read. -/
partial def readLineBytes (input : IO.FS.Stream) (line : ByteArray) : IO ByteArray := do
  match (← input.read 1).toList with
  | [] => return line
  | byte :: _ => if byte = 10 then return line.push byte else readLineBytes input (line.push byte)

/-- A line of standard input, empty at its end. -/
def readLine : IO (Except IoError String) := do
  try
    return decodeText (← readLineBytes (← IO.getStdin) ByteArray.empty).toList
  catch e => return .error (.ofSystem e)

/-- A session at the prompt. -/
partial def converse (s : Session) : IO UInt32 := do
  if let some interruption ← writeOutput (.out s.prompt) then
    return (← interrupt interruption)
  match ← readLine with
  | .error cause => conclude (some (.stream cause))
  | .ok "" => perform ⟨s.close, none⟩
  | .ok line =>
    match s.feed line with
    | none => conclude none
    | some (outputs, after) =>
      match ← writeOutputs outputs with
      | some interruption => interrupt interruption
      | none => converse after

end LoxLex

open LoxLex in
/-- The program. -/
def main (arguments : List String) : IO UInt32 := do
  let environment : Environment :=
    ⟨← IO.getEnv OptionName.format.variableName, ← IO.getEnv OptionName.verbosity.variableName⟩
  match Request.ofArguments arguments environment with
  | .error error =>
    offerTexts [Wording.plain.refusal error]
    return ArgumentError.exitStatus.toUInt32
  | .ok (.session settings) => converse (Session.start settings)
  | .ok (.tokens path settings) => perform (fileTranscript settings (← readTextFile path))
  | .ok (.refused error) => conclude (some error)
  | .ok .version => say versionText
  | .ok .help => say Wording.plain.help
