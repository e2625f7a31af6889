import LoxLex.Arguments

set_option relaxedAutoImplicit false
set_option autoImplicit false

/-!
# Wording

Three kinds of text on the command line are not the program's own: the help, the report on a command
line that is refused, and the report on a crash. They come from whatever reads the arguments and
from the runtime. So they are a parameter of a run, and nothing that is proved depends on them. The
plain wording below is made up, to have one to run the program with.

## Main definitions

* `LoxLex.Wording` — the texts.
* `LoxLex.Wording.plain` — a choice of them.
-/

namespace LoxLex

/-- The texts that are not the program's own. -/
structure Wording where
  /-- The answer to a request for help. -/
  help : String
  /-- The report on a command line that is refused. -/
  refusal : ArgumentError → String
  /-- The texts of the report on a crash, given the cause for which a text was refused. -/
  crash : IoError → List String

namespace Wording

/-- What is wrong with a command line. -/
def fault : ArgumentError → String
  | .unknownOption argument | .surplusArgument argument =>
    "unexpected argument " ++ DebugNotation.quoted argument
  | .missingValue option => "a value is required for --" ++ option.name
  | .invalidValue option value =>
    "invalid value " ++ DebugNotation.quoted value ++ " for --" ++ option.name
  | .repeatedOption option => "--" ++ option.name ++ " cannot be used multiple times"
  | .missingFile => "a source file is required"

/-- A wording as short as can be. -/
def plain : Wording where
  help := "Usage: " ++ usageText ++ "\n"
  refusal := fun error => "error: " ++ fault error ++ "\n"
  crash := fun cause => ["standard error cannot be written: " ++ cause.message ++ "\n"]

end Wording

end LoxLex
