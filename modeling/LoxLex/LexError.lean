import LoxLex.Location

set_option relaxedAutoImplicit false
set_option autoImplicit false

/-!
# Errors in a text

The two things that can be wrong with a text. Neither of them ends a scan.

## Main definitions

* `LoxLex.LexError` — the errors, each with its span.
* `LoxLex.LexError.message` — the line that reports an error.
* `LoxLex.LexError.wantsMore`, `LoxLex.LexError.listWantsMore` — whether more text could
  mend an error, and a list of errors.

## Main results

* `LoxLex.LexError.listWantsMore_iff` — more text could mend one open string and nothing else.
-/

namespace LoxLex

/-- An error in a text. -/
inductive LexError where
  /-- A character that begins no lexeme. -/
  | unexpectedCharacter (character : Char) (span : Span)
  /-- A string without its closing quote; the span runs from the opening quote to the end of the
  text. -/
  | unterminatedString (span : Span)
deriving DecidableEq

namespace LexError

/-- The place of an error. -/
def span : LexError → Span
  | unexpectedCharacter _ span => span
  | unterminatedString span => span

/-- The line on which an error begins, and on which it is reported. -/
def line (e : LexError) : Nat := e.span.start.line

/-- Whether more text could mend the error. -/
def wantsMore : LexError → Bool
  | unexpectedCharacter _ _ => false
  | unterminatedString _ => true

/-- Whether more text could mend a list of errors: there is one error, and it is an open string.
Whatever comes beside an open string is worth a report at once. -/
def listWantsMore : List LexError → Bool
  | [e] => e.wantsMore
  | _ => false

/-- More text could mend a list of errors just if it consists of one open string. -/
theorem listWantsMore_iff (errors : List LexError) :
    listWantsMore errors = true ↔ ∃ span, errors = [unterminatedString span] := by
  cases errors with
  | nil => simp [listWantsMore]
  | cons e errors => cases e <;> cases errors <;> simp [listWantsMore, wantsMore]

/-- What is wrong, without the place. -/
def description : LexError → String
  | unexpectedCharacter c _ =>
    "unexpected character `" ++ String.ofList (escapeChar .anywhere c) ++ "`"
  | unterminatedString _ => "unterminated string"

/-- The report of an error: its line and what is wrong. -/
def message (e : LexError) : String :=
  "[line " ++ toString e.line ++ "] Error: " ++ e.description

instance : ToString LexError := ⟨message⟩

/-- The debug text of an error. -/
def debugText : LexError → String
  | unexpectedCharacter c span =>
    DebugNotation.record "UnexpectedCharacter"
      [("character", DebugNotation.quotedChar c), ("span", span.debugText)]
  | unterminatedString span =>
    DebugNotation.record "UnterminatedString" [("span", span.debugText)]

end LexError

end LoxLex
