import LoxLex.Text.DebugNotation

set_option relaxedAutoImplicit false
set_option autoImplicit false

/-!
# Locations and spans

A location is a line and a column, both counted from one; columns count characters. A span is
the stretch of text between two locations, the second one standing directly after its last
character.

## Main definitions

* `LoxLex.Location` — a line and a column, ordered by line first.
* `LoxLex.Location.step`, `LoxLex.Location.after` — the location after one character, after a text.
* `LoxLex.Span` — a start and an end.

## Main results

* `LoxLex.Location.after_append` — a text may be walked over in two parts.
-/

namespace LoxLex

/-- A line and a column, each counted from one. -/
structure Location where
  /-- The line. -/
  line : Nat
  /-- The column, in characters. -/
  col : Nat
deriving DecidableEq, Repr

namespace Location

/-- The location of the first character of every text. -/
def start : Location := ⟨1, 1⟩

instance : Inhabited Location := ⟨start⟩

/-- Earlier lines come first, and on one line earlier columns. -/
instance : Ord Location where
  compare a b := (compare a.line b.line).then (compare a.col b.col)

instance : LT Location := ltOfOrd

instance : LE Location := leOfOrd

instance : Max Location := maxOfLe

instance : Min Location := minOfLe

/-- The location after a character: a newline leads to the start of the next line, every other
character to the next column. -/
def step (l : Location) (c : Char) : Location :=
  if c = '\n' then ⟨l.line + 1, 1⟩ else ⟨l.line, l.col + 1⟩

/-- The location after a text that begins at `l`. -/
def after (l : Location) (text : List Char) : Location :=
  text.foldl step l

/-- No text leads nowhere. -/
@[simp] theorem after_nil (l : Location) : l.after [] = l := rfl

/-- A text leads on from the location after its first character. -/
@[simp] theorem after_cons (l : Location) (c : Char) (text : List Char) :
    l.after (c :: text) = (l.step c).after text := rfl

/-- A text may be walked over in two parts. -/
@[simp] theorem after_append (l : Location) (a b : List Char) :
    l.after (a ++ b) = (l.after a).after b :=
  List.foldl_append

/-- Line and column with a colon between. -/
protected def toString (l : Location) : String :=
  toString l.line ++ ":" ++ toString l.col

instance : ToString Location := ⟨Location.toString⟩

/-- The debug text of a location. -/
def debugText (l : Location) : String :=
  DebugNotation.record "Location" [("line", toString l.line), ("col", toString l.col)]

/-- The locations in ascending order. -/
def sorted (ls : List Location) : List Location :=
  ls.mergeSort (fun a b => (compare a b).isLE)

end Location

/-- A stretch of text: the location of its first character and the one directly after its last. -/
structure Span where
  /-- The location of the first character. -/
  start : Location
  /-- The location after the last character. -/
  stop : Location
deriving DecidableEq, Repr

namespace Span

/-- The span of no character at all, at a location. -/
def empty (l : Location) : Span := ⟨l, l⟩

/-- The start alone if the span is empty, else both ends with a hyphen between. -/
protected def toString (s : Span) : String :=
  if s.start = s.stop then toString s.start else toString s.start ++ "-" ++ toString s.stop

instance : ToString Span := ⟨Span.toString⟩

/-- The debug text of a span. -/
def debugText (s : Span) : String :=
  DebugNotation.record "Span" [("start", s.start.debugText), ("end", s.stop.debugText)]

end Span

end LoxLex
