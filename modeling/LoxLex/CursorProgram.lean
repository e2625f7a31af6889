import LoxLex.Scan
import LoxLex.WordCursor

set_option relaxedAutoImplicit false
set_option autoImplicit false

/-!
# Programs over cursors

A program over a cursor performs operations on it one after the other, and looks at its offset and
its location. What it does next may depend on all that it has got so far. It knows nothing else of
the cursor, so it runs on every kind of cursor. The scan of a text is such a program.

## Main definitions

* `LoxLex.TextReader` — what all kinds of cursors offer.
* `LoxLex.CursorProgram`, `LoxLex.CursorProgram.run` — programs, and what they do on a cursor.
* `LoxLex.CursorProgram.stringKind`, `numberKind`, `wordKind`, `operatorKind`, `kind?` — lexemes by
  their first character.
* `LoxLex.CursorProgram.item?`, `LoxLex.CursorProgram.items` — one step through a text, and all of
  them.

## Main results

* `LoxLex.CursorProgram.run_bind` — programs run one after the other.
-/

namespace LoxLex

/-- What all kinds of cursors offer. -/
class TextReader (κ : Type) where
  /-- Performs an operation. -/
  perform : κ → CursorOp → CursorReply × κ
  /-- The number of UTF-8 bytes already passed. -/
  offset : κ → Nat
  /-- Line and column of the next character. -/
  location : κ → Location

instance : TextReader Cursor := ⟨Cursor.perform, Cursor.offset, Cursor.location⟩

instance : TextReader ByteCursor := ⟨ByteCursor.perform, ByteCursor.offset, ByteCursor.location⟩

instance : TextReader WordCursor where
  perform := WordCursor.perform
  offset c := c.numbers.offset
  location c := c.numbers.location

namespace CursorReply

/-- The character of a reply that may have one. -/
def char? : CursorReply → Option Char
  | char ch => ch
  | flag _ | count _ | text _ => none

/-- The answer of a reply to a question. -/
def answer : CursorReply → Bool
  | flag answer => answer
  | char _ | count _ | text _ => false

/-- The text of a reply that has one. -/
def textOr : CursorReply → String
  | text t => t
  | char _ | flag _ | count _ => ""

end CursorReply

/-- What is done on a cursor, up to a result. -/
inductive CursorProgram (α : Type) : Type where
  /-- Nothing more; the result is there. -/
  | done (result : α)
  /-- An operation, and what is done upon its reply. -/
  | ask (op : CursorOp) (next : CursorReply → CursorProgram α)
  /-- A look at the offset and the location, and what is done upon that. -/
  | look (next : Nat → Location → CursorProgram α)

namespace CursorProgram

variable {α β κ : Type}

/-- One program, and then another one that depends on its result. -/
protected def bind : CursorProgram α → (α → CursorProgram β) → CursorProgram β
  | done result, f => f result
  | ask op next, f => ask op fun reply => (next reply).bind f
  | look next, f => look fun offset location => (next offset location).bind f

instance : Monad CursorProgram where
  pure := done
  bind := CursorProgram.bind

/-- What a program does on a cursor: its result, and the cursor that it leaves. -/
def run [TextReader κ] : CursorProgram α → κ → α × κ
  | done result, c => (result, c)
  | ask op next, c =>
    let (reply, d) := TextReader.perform c op
    (next reply).run d
  | look next, c => (next (TextReader.offset c) (TextReader.location c)).run c

/-- A result alone leaves the cursor as it is. -/
@[simp] theorem run_pure [TextReader κ] (a : α) (c : κ) :
    (pure a : CursorProgram α).run c = (a, c) := rfl

/-- An operation runs on the cursor, and what is done upon its reply on the cursor behind it. -/
@[simp] theorem run_ask [TextReader κ] (op : CursorOp) (next : CursorReply → CursorProgram α)
    (c : κ) : (ask op next).run c =
      (next (TextReader.perform c op).1).run (TextReader.perform c op).2 := rfl

/-- A look leaves the cursor as it is. -/
@[simp] theorem run_look [TextReader κ] (next : Nat → Location → CursorProgram α) (c : κ) :
    (look next).run c = (next (TextReader.offset c) (TextReader.location c)).run c := rfl

/-- A program that follows another one runs on the cursor that the first one leaves. -/
@[simp] theorem run_bind [TextReader κ] (x : CursorProgram α) (f : α → CursorProgram β) (c : κ) :
    (x >>= f).run c = (f (x.run c).1).run (x.run c).2 := by
  induction x generalizing c with
  | done result => rfl
  | ask op next ih => exact ih _ _
  | look next ih => exact ih _ _ c

/-! ## Single operations -/

/-- Looks at the next character. -/
def head : CursorProgram (Option Char) := ask .head fun reply => done reply.char?

/-- Looks at the character after the next one. -/
def second : CursorProgram (Option Char) := ask .second fun reply => done reply.char?

/-- Passes the next character. -/
def next : CursorProgram (Option Char) := ask .next fun reply => done reply.char?

/-- Passes characters as long as they satisfy `p`. -/
def passWhile (p : Char → Bool) : CursorProgram Unit := ask (.passWhile p) fun _ => done ()

/-- Passes the next character if it is `ch`, and says whether it was. -/
def accept (ch : Char) : CursorProgram Bool := ask (.accept ch) fun reply => done reply.answer

/-- Cuts out the text from a byte offset up to the cursor. -/
def textSince (start : Nat) : CursorProgram String :=
  ask (.textSince start) fun reply => done reply.textOr

/-- Looks at the offset. -/
def offset : CursorProgram Nat := look fun offset _ => done offset

/-- Looks at the location. -/
def location : CursorProgram Location := look fun _ location => done location

/-! ## The scan -/

/-- The rest of a string that began at `start`; the opening quote is passed already. -/
def stringKind (start : Location) : CursorProgram (Except LexError Kind) := do
  let opening ← offset
  passWhile (· != '\x22')
  let body ← textSince opening
  if ← accept '\x22' then return .ok (.literal (.string body))
  else return .error (.unterminatedString ⟨start, ← location⟩)

/-- The part of a number behind its first digits: a point and digits, if there is a digit behind the
point. -/
def passFraction : CursorProgram Unit := do
  if (← head) = some '.' then
    if (← second).any isDigit then
      let _ ← next
      passWhile isDigit

/-- The rest of a number that began at byte offset `start`; its first digit is passed already. -/
def numberKind (start : Nat) : CursorProgram Kind := do
  passWhile isDigit
  passFraction
  let text ← textSince start
  return .literal (.number ((Binary64.ofText? text.toList).getD .zero))

/-- The rest of a word that began at byte offset `start`; its first character is passed already. -/
def wordKind (start : Nat) : CursorProgram Kind := do
  passWhile isWordPart
  match Keyword.ofSpelling? (← textSince start) with
  | some word => return .keyword word
  | none => return .identifier

/-- An operator whose first character is passed already, with an equals sign behind it if the two
together are an operator. -/
def operatorKind (op : Operator) : CursorProgram Kind := do
  match op.withEqual? with
  | none => return .operator op
  | some longer => if ← accept '=' then return .operator longer else return .operator op

/-- The kind of a lexeme that began at `start` with `ch`, or what is wrong with it; the character is
passed already. There is none for a blank or a comment. -/
def kind? (ch : Char) (start : Nat) (place : Location) :
    CursorProgram (Option (Except LexError Kind)) := do
  if isBlank ch then return none
  else if ch = '\x22' then return some (← stringKind place)
  else if isDigit ch then return some (.ok (← numberKind start))
  else if isWordStart ch then return some (.ok (← wordKind start))
  else if ch = '/' then
    if ← accept '/' then
      passWhile (· != '\n')
      return none
    else return some (.ok (.operator .slash))
  else
    match Operator.ofChar? ch with
    | some op => return some (.ok (← operatorKind op))
    | none => return some (.error (.unexpectedCharacter ch ⟨place, ← location⟩))

/-- The token of a kind that began at `start` and ends at the cursor. -/
def token (kind : Kind) (start : Nat) (place : Location) : CursorProgram Item := do
  let lexeme ← textSince start
  return .token ⟨kind, lexeme, ⟨place, ← location⟩⟩

/-- One step through a text. There is no item for a blank or a comment. -/
def item? : CursorProgram (Option Item) := do
  let start ← offset
  let place ← location
  match ← next with
  | none => return some (← token .endOfInput start place)
  | some ch =>
    match ← kind? ch start place with
    | none => return none
    | some (.ok kind) => return some (← token kind start place)
    | some (.error error) => return some (.error error)

/-- The items of a text, by at most `n` steps. The token for its end is the last one. -/
def items : Nat → CursorProgram (List Item)
  | 0 => return []
  | n + 1 => do
    match ← item? with
    | none => items n
    | some item => if item.isEnd then return [item] else return item :: (← items n)

/-- The tokens and the errors of a text. Each step but the last one passes a character of it. -/
def scan (source : String) : CursorProgram Scan := do
  return .ofItems (← items (source.toList.length + 1))

end CursorProgram

end LoxLex
