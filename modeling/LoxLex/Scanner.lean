import LoxLex.Step

set_option relaxedAutoImplicit false
set_option autoImplicit false

/-!
# Scanners

A scanner gives the items of a text one at a time: tokens and errors in the order of the text, and
at last the token for its end. After that it has nothing more to give.

## Main definitions

* `LoxLex.Item` — a token or an error.
* `LoxLex.Cursor.nextItem` — the item in front of a cursor.
* `LoxLex.Scanner` — a cursor, and whether the end was given already.
* `LoxLex.Scanner.next`, `nth`, `take`, `drain` — one item, a later one, several, all.

## Main results

* `LoxLex.Cursor.nextItem_rest_length_lt` — every item but the last uses up some of the text.
-/

namespace LoxLex

/-- One result of a scan. -/
inductive Item where
  /-- A lexeme, or the end of the text. -/
  | token (t : Token)
  /-- Something wrong with the text. -/
  | error (e : LexError)
deriving DecidableEq

namespace Item

/-- Whether this is the token for the end of the text. -/
def isEnd : Item → Bool
  | token t => t.isEnd
  | error _ => false

/-- The token of an item. -/
def token? : Item → Option Token
  | token t => some t
  | error _ => none

/-- The error of an item. -/
def error? : Item → Option LexError
  | token _ => none
  | error e => some e

end Item

namespace Cursor

/-- The token of a kind that reaches from one cursor to a later one. -/
def tokenTo (start : Cursor) (kind : Kind) (stop : Cursor) : Token :=
  ⟨kind, String.ofList (stop.textSince start.offset), ⟨start.location, stop.location⟩⟩

/-- The first item in front of a cursor, and the cursor behind it. Blanks and comments are passed
over, and where nothing else is left the item is the end of the text. -/
def nextItem (c : Cursor) : Item × Cursor :=
  match _h : c.step with
  | .skip d => d.nextItem
  | .lexeme kind d => (.token (c.tokenTo kind d), d)
  | .fault e d => (.error e, d)
  | .finish => (.token (c.tokenTo .endOfInput c), c)
termination_by c.rest.length
decreasing_by exact rest_length_lt_of_step (by rw [_h]; rfl)

end Cursor

/-- A cursor on its way through a text. -/
structure Scanner where
  /-- The place behind the latest item. -/
  cursor : Cursor
  /-- Whether the token for the end of the text was given. -/
  finished : Bool
deriving DecidableEq

namespace Scanner

/-- The scanner at the start of a text. -/
def ofString (source : String) : Scanner := ⟨Cursor.ofString source, false⟩

/-- The next item, if the end was not yet given. -/
def next (s : Scanner) : Option Item × Scanner :=
  if s.finished then (none, s)
  else
    let (item, cursor) := s.cursor.nextItem
    (some item, ⟨cursor, item.isEnd⟩)

/-- The item after the next `n` ones. -/
def nth : Nat → Scanner → Option Item × Scanner
  | 0, s => s.next
  | n + 1, s =>
    match s.next with
    | (none, after) => (none, after)
    | (some _, after) => after.nth n

/-- The next `n` items, fewer if the text ends before. -/
def take : Nat → Scanner → List Item × Scanner
  | 0, s => ([], s)
  | n + 1, s =>
    match s.next with
    | (none, after) => ([], after)
    | (some item, after) =>
      let (items, last) := after.take n
      (item :: items, last)

/-- All items that are left. Each of them but the last uses up a character, so there is at most
one more than there are characters. -/
def drain (s : Scanner) : List Item × Scanner := s.take (s.cursor.rest.length + 1)

/-- The debug text of a scanner. -/
def debugText (s : Scanner) : String :=
  DebugNotation.record "Scanner"
    [("cursor", s.cursor.debugText), ("finished", toString s.finished)]

end Scanner

/-- The items of a text. -/
def items (source : String) : List Item := (Scanner.ofString source).drain.1

end LoxLex
