import LoxLex.Log
import LoxLex.RunMode
import LoxLex.TokenFormat

set_option relaxedAutoImplicit false
set_option autoImplicit false

/-!
# Command-line arguments

A command line names a source file, or one of the commands `tokenize` with a source file and
`repl`. Two options say how tokens are printed and how much of the log is shown; they may stand
before a command, and again behind it. What no option says may be said by an environment variable.

The arguments are read from left to right. The first one that does not fit ends the reading, and
so does a request for the version or for help. A value that is an argument of its own is held back
until more is read at the same place or that place ends, so a wrong one goes unnoticed when it is
followed by the word `help`, or by a command behind which help is asked for.

## Main definitions

* `LoxLex.Settings` — what the options say.
* `LoxLex.Request` — what a command line asks for.
* `LoxLex.ArgumentError` — why a command line is refused.
* `LoxLex.PlaceOptions`, `LoxLex.PlaceOptions.settle` — the options of one place, and taking in the
  value that is held back there.
* `LoxLex.Reading`, `LoxLex.Reading.step`, `LoxLex.Reading.finish` — reading one argument, and what
  the arguments amount to.
* `LoxLex.Reading.call`, `LoxLex.Reading.sourceFile` — the command and the source file that are
  named, where those that are required are named.
* `LoxLex.Request.ofArguments` — the request of a command line.
-/

namespace LoxLex

/-- How a run prints. -/
structure Settings where
  /-- The form of tokens. -/
  format : TokenFormat
  /-- How much of the log is shown. -/
  verbosity : Verbosity
deriving DecidableEq

/-- What a command line asks for. -/
inductive Request where
  /-- The tokens of a file. -/
  | tokens (path : String) (settings : Settings)
  /-- A session at the prompt. -/
  | session (settings : Settings)
  /-- Something that is not offered. -/
  | refused (error : RunError)
  /-- The version of the program. -/
  | version
  /-- How to call the program. -/
  | help
deriving DecidableEq

/-- The request for what a call asks to be done. -/
def Request.ofMode (settings : Settings) : Except RunError RunMode → Request
  | .ok (.file path) => .tokens path settings
  | .ok .session => .session settings
  | .error error => .refused error

/-- The two options. -/
inductive OptionName where
  | format
  | verbosity
deriving DecidableEq, Repr

/-- Why a command line is refused. -/
inductive ArgumentError where
  /-- There is no option of this name here. -/
  | unknownOption (argument : String)
  /-- An option stands without a value. -/
  | missingValue (option : OptionName)
  /-- A value that the option does not have. -/
  | invalidValue (option : OptionName) (value : String)
  /-- An option is given twice at one place. -/
  | repeatedOption (option : OptionName)
  /-- A source file is needed. -/
  | missingFile
  /-- An argument too many. -/
  | surplusArgument (argument : String)
deriving DecidableEq

namespace OptionName

/-- The name of an option behind its two hyphens. -/
def name : OptionName → String
  | format => "format"
  | verbosity => "log-level"

/-- The environment variable that stands in for an option. -/
def variableName : OptionName → String
  | format => "LOX_TOKEN_FORMAT"
  | verbosity => "LOX_LOG"

/-- The option of a name. -/
def ofName? (text : String) : Option OptionName :=
  [format, verbosity].find? fun o => o.name == text

end OptionName

namespace ArgumentError

/-- The status that the process exits with when a command line is refused. -/
def exitStatus : UInt8 := 2

end ArgumentError

/-! ## Words -/

/-- An argument by its shape. -/
inductive Word where
  /-- Two hyphens alone: everything behind them is taken as it stands. -/
  | divider
  /-- A name behind two hyphens, and the value behind an equals sign. -/
  | long (name : String) (value : Option String)
  /-- The first of the letters behind a single hyphen. -/
  | short (letter : Char)
  /-- Anything else, a lone hyphen among it. -/
  | plain
deriving DecidableEq

namespace Word

/-- The shape of an argument. -/
def ofArgument (argument : String) : Word :=
  match argument.toList with
  | ['-', '-'] => divider
  | '-' :: '-' :: text =>
    let name := String.ofList (text.takeWhile (· != '='))
    match text.dropWhile (· != '=') with
    | [] => long name none
    | _ :: value => long name (some (String.ofList value))
  | '-' :: letter :: _ => short letter
  | _ => plain

end Word

/-! ## Reading -/

/-- The options that were given at one place. -/
structure OptionValues where
  /-- The form of tokens. -/
  format : Option TokenFormat
  /-- How much of the log is shown. -/
  verbosity : Option Verbosity
deriving DecidableEq

namespace OptionValues

/-- No option at all. -/
def none : OptionValues := ⟨.none, .none⟩

/-- Adds the value of an option, which must not have one yet. -/
def set (values : OptionValues) (option : OptionName) (value : String) :
    Except ArgumentError OptionValues :=
  match option with
  | .format =>
    if values.format.isSome then .error (.repeatedOption option)
    else
      match TokenFormat.ofName? value with
      | some format => .ok { values with format := some format }
      | .none => .error (.invalidValue option value)
  | .verbosity =>
    if values.verbosity.isSome then .error (.repeatedOption option)
    else
      match Verbosity.ofName? value with
      | some verbosity => .ok { values with verbosity := some verbosity }
      | .none => .error (.invalidValue option value)

/-- Whether an option was given. -/
def has (values : OptionValues) : OptionName → Bool
  | .format => values.format.isSome
  | .verbosity => values.verbosity.isSome

/-- The values given here, and where there are none the other ones. -/
def orElse (values others : OptionValues) : OptionValues :=
  ⟨values.format <|> others.format, values.verbosity <|> others.verbosity⟩

end OptionValues

/-- What was read of the options at one place. -/
structure PlaceOptions where
  /-- The values that were taken in. -/
  values : OptionValues
  /-- The option whose value is held back, and that value, which may turn out to be wrong. -/
  held : Option (OptionName × String)
deriving DecidableEq

namespace PlaceOptions

/-- Nothing was read. -/
def start : PlaceOptions := ⟨.none, none⟩

/-- The values once the one that is held back is taken in. -/
def settle (p : PlaceOptions) : Except ArgumentError OptionValues :=
  match p.held with
  | none => .ok p.values
  | some (option, value) => p.values.set option value

end PlaceOptions

/-- The environment variables that stand in for options. -/
structure Environment where
  /-- The value of the variable for the form of tokens. -/
  format : Option String
  /-- The value of the variable for the log. -/
  verbosity : Option String

namespace Environment

/-- The value that stands in for an option. -/
def value? (e : Environment) : OptionName → Option String
  | .format => e.format
  | .verbosity => e.verbosity

/-- Adds the value that stands in for an option, unless the option is given. -/
def fillOption (e : Environment) (given found : OptionValues) (option : OptionName) :
    Except ArgumentError OptionValues :=
  if given.has option then .ok found
  else
    match e.value? option with
    | some value => found.set option value
    | none => .ok found

/-- The options that are not given at one place, as far as the environment has values for them. -/
def fill (e : Environment) (given : OptionValues) : Except ArgumentError OptionValues :=
  [OptionName.format, OptionName.verbosity].foldlM (e.fillOption given) OptionValues.none

end Environment

/-- A command. -/
inductive Command where
  /-- Print the tokens of a file. -/
  | tokenize
  /-- Start a session at the prompt. -/
  | repl
deriving DecidableEq, Repr

namespace Command

/-- The command of a name, which has to be spelled exactly so. -/
def ofName? : String → Option Command
  | "tokenize" => some tokenize
  | "repl" => some repl
  | _ => none

end Command

/-- How much was said about the help that is asked for. -/
inductive HelpTopic where
  /-- The program as a whole, unless a command follows. -/
  | program
  /-- One command. -/
  | command
deriving DecidableEq, Repr

/-- What was read of a command line so far. -/
structure Reading where
  /-- The command. -/
  command : Option Command
  /-- The file before any command. -/
  outerFile : Option String
  /-- The file behind the command. -/
  innerFile : Option String
  /-- The options before any command. -/
  outer : PlaceOptions
  /-- The options behind the command. -/
  inner : PlaceOptions
  /-- The option whose value is the next argument. -/
  awaiting : Option OptionName
  /-- Whether the divider was read. -/
  divided : Bool
  /-- The help that is asked for by the word `help`. -/
  topic : Option HelpTopic
deriving DecidableEq

/-- Why the reading of a command line ends before its last argument. -/
inductive Halt where
  /-- An argument does not fit. -/
  | refused (error : ArgumentError)
  /-- The version is asked for. -/
  | version
  /-- Help is asked for. -/
  | help
deriving DecidableEq

namespace Reading

/-- Nothing was read. -/
def start : Reading := ⟨none, none, none, .start, .start, none, false, none⟩

/-- The options of the place where the reading stands. -/
def here (r : Reading) : PlaceOptions :=
  match r.command with
  | none => r.outer
  | some _ => r.inner

/-- Replaces the options of the place where the reading stands. -/
def setHere (r : Reading) (options : PlaceOptions) : Reading :=
  match r.command with
  | none => { r with outer := options }
  | some _ => { r with inner := options }

/-- Takes in the value that is held back where the reading stands. -/
def settle (r : Reading) : Except Halt Reading :=
  match r.here.settle with
  | .ok values => .ok (r.setHere ⟨values, none⟩)
  | .error e => .error (.refused e)

/-- Holds back the value of an option that waits for it. -/
def hold (r : Reading) (option : OptionName) (value : String) : Reading :=
  { r.setHere { r.here with held := some (option, value) } with awaiting := none }

/-- Takes in the value of an option, behind the one that is held back. -/
def setOption (r : Reading) (option : OptionName) (value : String) : Except Halt Reading := do
  let settled ← r.settle
  (settled.hold option value).settle

/-- Ends the reading, unless the value that is held back is wrong. -/
def haltWith (r : Reading) (halt : Halt) : Except Halt Reading := do
  let _ ← r.settle
  throw halt

/-- Takes in the name of a file. -/
def setFile (r : Reading) (argument : String) : Except Halt Reading := do
  let settled ← r.settle
  match settled.command with
  | none =>
    if settled.outerFile.isSome then throw (.refused (.surplusArgument argument))
    else return { settled with outerFile := some argument }
  | some .tokenize =>
    if settled.innerFile.isSome then throw (.refused (.surplusArgument argument))
    else return { settled with innerFile := some argument }
  | some .repl => throw (.refused (.surplusArgument argument))

/-- Reads an option. The version is known only before any command, and neither it nor help takes a
value. -/
def readOption (r : Reading) (argument : String) (name : String) (value : Option String) :
    Except Halt Reading :=
  match OptionName.ofName? name, value with
  | some option, some value => r.setOption option value
  | some option, none => do
    let settled ← r.settle
    return { settled with awaiting := some option }
  | none, some _ => .error (.refused (.unknownOption argument))
  | none, none =>
    if name = "version" ∧ r.command = none then r.haltWith .version
    else if name = "help" then r.haltWith .help
    else .error (.refused (.unknownOption argument))

/-- Reads an option of one letter. -/
def readLetter (r : Reading) (argument : String) (letter : Char) : Except Halt Reading :=
  if letter = 'V' ∧ r.command = none then r.haltWith .version
  else if letter = 'h' then r.haltWith .help
  else .error (.refused (.unknownOption argument))

/-- Reads an argument behind the word `help`, which may only be the name of one command. -/
def readTopic (r : Reading) (topic : HelpTopic) (argument : String) : Except Halt Reading :=
  if topic = .program ∧ ((Command.ofName? argument).isSome ∨ argument = "help") then
    .ok { r with topic := some .command }
  else .error (.refused (.surplusArgument argument))

/-- Reads an argument without hyphens: a command if there is none yet, else a file. Neither a
command nor the word `help` takes in the value that is held back. -/
def readPlain (r : Reading) (argument : String) : Except Halt Reading :=
  if r.command = none then
    match Command.ofName? argument with
    | some command => .ok { r with command := some command }
    | none =>
      if argument = "help" then .ok { r with topic := some .program } else r.setFile argument
  else r.setFile argument

/-- Reads one argument. -/
def step (r : Reading) (argument : String) : Except Halt Reading :=
  match r.topic with
  | some topic => r.readTopic topic argument
  | none =>
    if r.divided then r.setFile argument
    else
      match r.awaiting, Word.ofArgument argument with
      | some option, .plain => .ok (r.hold option argument)
      | some option, _ => .error (.refused (.missingValue option))
      | none, .divider => .ok { r with divided := true }
      | none, .long name value => r.readOption argument name value
      | none, .short letter => r.readLetter argument letter
      | none, .plain => r.readPlain argument

/-- The settings of a command line. What is said behind the command counts before what is said
before it, and that before the environment, which is looked at for each of the two places. -/
def settings (r : Reading) (e : Environment) : Except ArgumentError Settings := do
  let inner ← r.inner.settle
  let outer ← r.outer.settle
  let fromInner ← if r.command.isSome then e.fill inner else pure OptionValues.none
  let fromOuter ← e.fill outer
  let values := (inner.orElse outer).orElse (fromInner.orElse fromOuter)
  pure ⟨values.format.getD .canonical, values.verbosity.getD (.upTo .warn)⟩

/-- The command with what it is given. A file that it needs has to be named behind it. -/
def call (r : Reading) : Except ArgumentError (Option CommandCall) :=
  match r.command, r.innerFile with
  | none, _ => .ok none
  | some .repl, _ => .ok (some .repl)
  | some .tokenize, some path => .ok (some (.tokenize path))
  | some .tokenize, none => .error .missingFile

/-- The source file, which is required unless a command is named. -/
def sourceFile (r : Reading) : Except ArgumentError (Option String) :=
  if r.command = none ∧ r.outerFile = none then .error .missingFile else .ok r.outerFile

/-- What the arguments amount to when all of them were read. -/
def finish (r : Reading) (e : Environment) : Except ArgumentError Request := do
  if r.topic.isSome then return .help
  if let some option := r.awaiting then throw (.missingValue option)
  let settings ← r.settings e
  let command ← r.call
  let sourceFile ← r.sourceFile
  return .ofMode settings (RunMode.select command sourceFile)

end Reading

/-- The request of a command line. -/
def Request.ofArguments (arguments : List String) (e : Environment) :
    Except ArgumentError Request :=
  match arguments.foldlM Reading.step Reading.start with
  | .ok reading => reading.finish e
  | .error (.refused error) => .error error
  | .error .version => .ok .version
  | .error .help => .ok .help

end LoxLex
