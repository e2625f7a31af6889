set_option relaxedAutoImplicit false
set_option autoImplicit false

/-!
# Logs

A log is a list of records, each of which has a severity. A computation may keep a log beside its
result; how much of it is shown in the end depends on a verbosity, which the computation never
sees.

## Main definitions

* `LoxLex.Severity`, `LoxLex.Verbosity` — how grave a record is, and how much is shown.
* `LoxLex.LogRecord` — a severity and a message.
* `LoxLex.Logged` — a result together with the log of its computation.
-/

namespace LoxLex

/-- How grave a log record is. -/
inductive Severity where
  | error
  | warn
  | info
  | debug
  | trace
deriving DecidableEq, Repr

namespace Severity

/-- Every severity, the gravest first. -/
def all : List Severity := [error, warn, info, debug, trace]

/-- The place of a severity, counted from the gravest one. -/
def rank : Severity → Nat
  | error => 1
  | warn => 2
  | info => 3
  | debug => 4
  | trace => 5

/-- The name of a severity in log lines. -/
def name : Severity → String
  | error => "ERROR"
  | warn => "WARN"
  | info => "INFO"
  | debug => "DEBUG"
  | trace => "TRACE"

end Severity

/-- How much of a log is shown. -/
inductive Verbosity where
  /-- Nothing. -/
  | off
  /-- Everything at least as grave as this. -/
  | upTo (least : Severity)
deriving DecidableEq, Repr

namespace Verbosity

/-- Whether records of a severity are shown. -/
def admits : Verbosity → Severity → Bool
  | off, _ => false
  | upTo least, s => decide (s.rank ≤ least.rank)

/-- The name of a verbosity in capitals. -/
def name : Verbosity → String
  | off => "OFF"
  | upTo least => least.name

/-- The verbosity of a name, whatever the case of its letters. -/
def ofName? (text : String) : Option Verbosity :=
  (off :: Severity.all.map upTo).find? fun v =>
    v.name.toList == text.toList.map Char.toUpper

end Verbosity

/-- A record of a log. -/
structure LogRecord where
  /-- How grave it is. -/
  severity : Severity
  /-- What it says. -/
  message : String
deriving DecidableEq

/-- The records that are shown. -/
def Verbosity.shown (v : Verbosity) (records : List LogRecord) : List LogRecord :=
  records.filter fun r => v.admits r.severity

/-- At the verbosity that admits none, no record is shown. -/
@[simp] theorem Verbosity.shown_off (records : List LogRecord) : off.shown records = [] :=
  List.filter_eq_nil_iff.2 fun _ _ => Bool.false_ne_true

namespace LogRecord

/-- The part of the program that all records come from. -/
def target : String := "lox_scanner::lox::token::lexer"

/-- The line of a record: its severity, padded to the longest name, its origin and its message. -/
def line (r : LogRecord) : String :=
  let padding := String.ofList (List.replicate (5 - r.severity.name.length) ' ')
  "[" ++ r.severity.name ++ padding ++ " " ++ target ++ "] " ++ r.message

end LogRecord

/-- A result, and the records made on the way to it. -/
structure Logged (α : Type) where
  /-- The result. -/
  value : α
  /-- The records, the earliest first. -/
  records : List LogRecord

namespace Logged

/-- The computations of one step follow each other, and so do their records. -/
instance : Monad Logged where
  pure a := ⟨a, []⟩
  bind x f := ⟨(f x.value).value, x.records ++ (f x.value).records⟩

/-- Makes one record. -/
def note (severity : Severity) (message : String) : Logged Unit := ⟨(), [⟨severity, message⟩]⟩

end Logged

end LoxLex
