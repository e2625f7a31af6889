import LoxLex.ByteCursor
import LoxLex.Cursor

set_option relaxedAutoImplicit false
set_option autoImplicit false

/-!
# Operations on cursors

All that can be asked of a cursor, as data: looks ahead, moves and cuts. Both kinds of cursors
perform them, one after the other.

## Main definitions

* `LoxLex.CursorOp`, `LoxLex.CursorReply` — the operations and what they give back.
* `LoxLex.Cursor.perform`, `LoxLex.ByteCursor.perform` — one operation.
* `LoxLex.Cursor.performAll`, `LoxLex.ByteCursor.performAll` — a sequence of them.
-/

namespace LoxLex

/-- An operation on a cursor. -/
inductive CursorOp where
  /-- Look at the next character. -/
  | head
  /-- Look at the character after the next one. -/
  | second
  /-- Ask whether no character is left. -/
  | atEnd
  /-- Pass the next character. -/
  | next
  /-- Pass the next character if it satisfies a condition. -/
  | nextIf (p : Char → Bool)
  /-- Pass characters as long as they satisfy a condition. -/
  | passWhile (p : Char → Bool)
  /-- Pass the next character if it is the given one. -/
  | accept (ch : Char)
  /-- Cut out the text from a byte offset up to the cursor. -/
  | textSince (start : Nat)

/-- What an operation gives back. -/
inductive CursorReply where
  /-- A character, if there was one. -/
  | char (ch : Option Char)
  /-- Yes or no. -/
  | flag (answer : Bool)
  /-- A number of characters. -/
  | count (n : Nat)
  /-- A text. -/
  | text (t : String)
deriving DecidableEq

/-- The reply to a move, and the cursor behind it: where it fails, the cursor stays. -/
def CursorReply.ofMove {α : Type} (c : α) : Option (Char × α) → CursorReply × α
  | some (ch, d) => (.char (some ch), d)
  | none => (.char none, c)

namespace Cursor

/-- Performs an operation. -/
def perform (c : Cursor) : CursorOp → CursorReply × Cursor
  | .head => (.char c.head?, c)
  | .second => (.char c.second?, c)
  | .atEnd => (.flag c.atEnd, c)
  | .next => CursorReply.ofMove c c.next?
  | .nextIf p => CursorReply.ofMove c (c.nextIf? p)
  | .passWhile p => ((c.passWhile p).map .count id)
  | .accept ch => ((c.accept ch).map .flag id)
  | .textSince start => (.text (String.ofList (c.textSince start)), c)

/-- Performs operations one after the other. -/
def performAll (c : Cursor) : List CursorOp → List CursorReply × Cursor
  | [] => ([], c)
  | op :: ops =>
    let (reply, d) := c.perform op
    let (replies, last) := d.performAll ops
    (reply :: replies, last)

end Cursor

namespace ByteCursor

/-- Performs an operation. -/
def perform (c : ByteCursor) : CursorOp → CursorReply × ByteCursor
  | .head => (.char c.head?, c)
  | .second => (.char c.second?, c)
  | .atEnd => (.flag c.atEnd, c)
  | .next => CursorReply.ofMove c c.next?
  | .nextIf p => CursorReply.ofMove c (c.nextIf? p)
  | .passWhile p => ((c.passWhile p).map .count id)
  | .accept ch => ((c.accept ch).map .flag id)
  | .textSince start => (.text (c.textSince start), c)

/-- Performs operations one after the other. -/
def performAll (c : ByteCursor) : List CursorOp → List CursorReply × ByteCursor
  | [] => ([], c)
  | op :: ops =>
    let (reply, d) := c.perform op
    let (replies, last) := d.performAll ops
    (reply :: replies, last)

end ByteCursor

end LoxLex
