import LoxLex.Location
import LoxLex.Text.DebugNotation

set_option relaxedAutoImplicit false
set_option autoImplicit false

/-!
# Cursors

A cursor stands between two characters of a text and only ever moves forward. It knows its
position in three ways: as the split of the text into what was consumed and what is left, as an
offset in UTF-8 bytes, and as a line and column.

## Main definitions

* `LoxLex.Cursor` — the position, with `Cursor.ofString` for the start of a text.
* `LoxLex.Cursor.next?`, `nextIf?`, `passWhile`, `accept` — the moves.
* `LoxLex.Cursor.textSince?`, `LoxLex.Cursor.textSince` — the text since an earlier offset.

## Main results

* `LoxLex.Cursor.next?_rest_length`, `LoxLex.Cursor.passWhile_rest_length_le` — moves use up
  what is left, which is the measure of every loop over a cursor.
-/

namespace LoxLex

/-- A position inside a text. -/
structure Cursor where
  /-- The characters already passed, the latest one first. -/
  consumed : List Char
  /-- The characters still ahead. -/
  rest : List Char
  /-- The number of UTF-8 bytes already passed. -/
  offset : Nat
  /-- Line and column of the next character. -/
  location : Location
deriving DecidableEq

namespace Cursor

/-- The cursor in front of the first character of a text. -/
def ofList (source : List Char) : Cursor := ⟨[], source, 0, Location.start⟩

/-- The cursor in front of the first character of a text. -/
def ofString (source : String) : Cursor := ofList source.toList

/-- The whole text, wherever the cursor stands in it. -/
def source (c : Cursor) : List Char := c.consumed.reverse ++ c.rest

/-- The next character. -/
def head? (c : Cursor) : Option Char := c.rest.head?

/-- The character after the next one. -/
def second? (c : Cursor) : Option Char := c.rest.tail.head?

/-- Whether no character is left. -/
def atEnd (c : Cursor) : Bool := c.rest.isEmpty

/-- The line on which the cursor stands. -/
def line (c : Cursor) : Nat := c.location.line

/-- Passes the next character and gives it back with the moved cursor. -/
def next? (c : Cursor) : Option (Char × Cursor) :=
  match c.rest with
  | [] => none
  | ch :: rest =>
    some (ch, ⟨ch :: c.consumed, rest, c.offset + ch.utf8Size, c.location.step ch⟩)

/-- Passes the next character if it satisfies `p`. -/
def nextIf? (p : Char → Bool) (c : Cursor) : Option (Char × Cursor) :=
  match c.head? with
  | some ch => if p ch then c.next? else none
  | none => none

/-- A character passed is one character less ahead. -/
theorem next?_rest_length {c d : Cursor} {ch : Char} (h : c.next? = some (ch, d)) :
    c.rest.length = d.rest.length + 1 := by
  unfold next? at h
  split at h
  · cases h
  · next hr => cases h; simp [hr]

/-- A conditional move is a move. -/
theorem next?_of_nextIf? {p : Char → Bool} {c d : Cursor} {ch : Char}
    (h : c.nextIf? p = some (ch, d)) : c.next? = some (ch, d) := by
  unfold nextIf? at h
  split at h
  · split at h
    · exact h
    · cases h
  · cases h

/-- Passes characters as long as they satisfy `p`, counting on from `n`. -/
def passWhileFrom (p : Char → Bool) (n : Nat) (c : Cursor) : Nat × Cursor :=
  match h : c.nextIf? p with
  | some (_, d) => passWhileFrom p (n + 1) d
  | none => (n, c)
termination_by c.rest.length
decreasing_by
  have := next?_rest_length (next?_of_nextIf? h)
  omega

/-- Passes characters as long as they satisfy `p` and gives their number. -/
def passWhile (p : Char → Bool) (c : Cursor) : Nat × Cursor := passWhileFrom p 0 c

/-- A run of moves never adds to what is ahead. -/
theorem passWhileFrom_rest_length_le (p : Char → Bool) (n : Nat) (c : Cursor) :
    (passWhileFrom p n c).2.rest.length ≤ c.rest.length := by
  fun_induction passWhileFrom p n c with
  | case1 n c ch d h ih =>
    have := next?_rest_length (next?_of_nextIf? h)
    omega
  | case2 => exact Nat.le_refl _

/-- A run of moves never adds to what is ahead. -/
theorem passWhile_rest_length_le (p : Char → Bool) (c : Cursor) :
    (c.passWhile p).2.rest.length ≤ c.rest.length :=
  passWhileFrom_rest_length_le p 0 c

/-- Passes the next character if it is `ch`, and says whether it was. -/
def accept (ch : Char) (c : Cursor) : Bool × Cursor :=
  match c.nextIf? (· == ch) with
  | some (_, d) => (true, d)
  | none => (false, c)

/-- An attempt to match never adds to what is ahead. -/
theorem accept_rest_length_le (ch : Char) (c : Cursor) :
    (c.accept ch).2.rest.length ≤ c.rest.length := by
  unfold accept
  split
  · next h =>
    have := next?_rest_length (next?_of_nextIf? h)
    exact Nat.le_of_lt (by simp only; omega)
  · exact Nat.le_refl _

/-- Takes `n` bytes off a text that is written back to front, and puts them in front of `taken` in
reading order. Fails where the text is too short or the cut would fall inside a character. -/
def takeBytes : Nat → List Char → List Char → Option (List Char)
  | 0, _, taken => some taken
  | _ + 1, [], _ => none
  | n + 1, ch :: text, taken =>
    if ch.utf8Size ≤ n + 1 then takeBytes (n + 1 - ch.utf8Size) text (ch :: taken) else none

/-- The text from byte offset `start` up to the cursor, if `start` lies between two characters and
not after the cursor. -/
def textSince? (c : Cursor) (start : Nat) : Option (List Char) :=
  if start ≤ c.offset then takeBytes (c.offset - start) c.consumed [] else none

/-- The text from byte offset `start` up to the cursor, empty where `Cursor.textSince?` has none. -/
def textSince (c : Cursor) (start : Nat) : List Char := (c.textSince? start).getD []

/-- The debug text of a cursor: the whole text, the byte offset and the location. -/
def debugText (c : Cursor) : String :=
  DebugNotation.record "SourceCursor"
    [("source", DebugNotation.quoted (String.ofList c.source)),
     ("offset", toString c.offset),
     ("location", c.location.debugText)]

end Cursor

end LoxLex
