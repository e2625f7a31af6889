import LoxLex.RunError

set_option relaxedAutoImplicit false
set_option autoImplicit false

/-!
# What a call asks to be done

A call names a source file, a command, or both of them, or nothing. Two of these are offered: a
source file on its own, and a command on its own.

## Main definitions

* `LoxLex.CommandCall` — a command with what it is given.
* `LoxLex.RunMode` — what is done.
* `LoxLex.RunMode.select` — what a call asks for, if it is offered.
-/

namespace LoxLex

/-- A command with what it is given. -/
inductive CommandCall where
  /-- Start a session at the prompt. -/
  | repl
  /-- Print the tokens of a file. -/
  | tokenize (path : String)
deriving DecidableEq

/-- What is done. -/
inductive RunMode where
  /-- The tokens of a file are printed. -/
  | file (path : String)
  /-- A session is held at the prompt. -/
  | session
deriving DecidableEq

/-- How the program is called. -/
def usageText : String := "lox-scanner [OPTIONS] <SOURCE_FILE> | tokenize <SOURCE_FILE> | repl"

/-- What a command and a source file ask for. A source file is only accepted on its own, or as what
`tokenize` is given. -/
def RunMode.select : Option CommandCall → Option String → Except RunError RunMode
  | none, some path | some (.tokenize path), none => .ok (.file path)
  | some .repl, none => .ok .session
  | some _, some _ | none, none => .error (.usage usageText)

end LoxLex
