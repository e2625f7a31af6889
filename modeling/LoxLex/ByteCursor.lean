import LoxLex.Location

set_option relaxedAutoImplicit false
set_option autoImplicit false

/-!
# Cursors by byte offsets

A cursor may keep the whole text and the number of bytes that it has passed, instead of the two
parts of the text. Whatever it reads it cuts out of the text anew, between two byte offsets. A cut
that would fall inside a character, or whose ends are in the wrong order, gives no text; what is
read there is empty.

## Main definitions

* `LoxLex.textBetween?` — the text between two byte offsets.
* `LoxLex.ByteCursor` — a text, a byte offset and a location.
* `LoxLex.ByteCursor.next?`, `nextIf?`, `passWhile`, `accept` — the moves.
* `LoxLex.ByteCursor.textSince` — the text since an earlier offset.

## Main results

* `LoxLex.ByteCursor.offset_lt_of_next?` — moves approach the end of the text, which is the measure
  of every loop.
-/

namespace LoxLex

/-- The text between two byte offsets, if the first one is not after the second one and both of
them lie between two characters or at an end. -/
def textBetween? (source : String) (first last : Nat) : Option String :=
  if h : String.Pos.Raw.IsValid source ⟨first⟩ ∧ String.Pos.Raw.IsValid source ⟨last⟩ ∧
      first ≤ last then
    some (source.extract (source.pos ⟨first⟩ h.1) (source.pos ⟨last⟩ h.2.1))
  else none

/-- The text between two offsets has as many bytes as there are from the one to the other. -/
theorem utf8ByteSize_of_textBetween? {source text : String} {first last : Nat}
    (h : textBetween? source first last = some text) :
    first + text.utf8ByteSize = last ∧ last ≤ source.utf8ByteSize := by
  unfold textBetween? at h
  split at h
  · next hcut =>
    obtain ⟨hfirst, hlast, hle⟩ := hcut
    have hend : last ≤ source.utf8ByteSize := hlast.le_utf8ByteSize
    obtain rfl := Option.some.inj h
    rw [← String.size_toByteArray, String.toByteArray_extract, ByteArray.size_extract,
      String.size_toByteArray, String.offset_pos, String.offset_pos]
    simp only
    omega
  · cases h

/-- A position inside a text, by the number of bytes before it. -/
structure ByteCursor where
  /-- The whole text. -/
  source : String
  /-- The number of UTF-8 bytes already passed. -/
  offset : Nat
  /-- Line and column of the next character. -/
  location : Location
deriving DecidableEq

namespace ByteCursor

/-- The cursor in front of the first character of a text. -/
def ofString (source : String) : ByteCursor := ⟨source, 0, Location.start⟩

/-- What is still ahead, empty where the cut would be none. -/
def rest (c : ByteCursor) : String :=
  (textBetween? c.source c.offset c.source.utf8ByteSize).getD ""

/-- The next character. -/
def head? (c : ByteCursor) : Option Char := c.rest.toList.head?

/-- The character after the next one. -/
def second? (c : ByteCursor) : Option Char := c.rest.toList.tail.head?

/-- Whether all bytes are passed. -/
def atEnd (c : ByteCursor) : Bool := decide (c.source.utf8ByteSize ≤ c.offset)

/-- Passes the next character and gives it back with the moved cursor. -/
def next? (c : ByteCursor) : Option (Char × ByteCursor) :=
  match c.head? with
  | none => none
  | some ch => some (ch, ⟨c.source, c.offset + ch.utf8Size, c.location.step ch⟩)

/-- Passes the next character if it satisfies `p`. -/
def nextIf? (p : Char → Bool) (c : ByteCursor) : Option (Char × ByteCursor) :=
  match c.head? with
  | some ch => if p ch then c.next? else none
  | none => none

/-- A cursor with a character ahead is not at the end. -/
theorem offset_lt_of_head? {c : ByteCursor} {ch : Char} (h : c.head? = some ch) :
    c.offset < c.source.utf8ByteSize := by
  unfold head? rest at h
  cases hcut : textBetween? c.source c.offset c.source.utf8ByteSize with
  | none =>
    rw [hcut] at h
    cases h
  | some text =>
    have hsize := (utf8ByteSize_of_textBetween? hcut).1
    have hne : text.utf8ByteSize ≠ 0 := by
      intro hzero
      obtain rfl := String.utf8ByteSize_eq_zero_iff.1 hzero
      rw [hcut] at h
      cases h
    omega

/-- A conditional move is a move. -/
theorem next?_of_nextIf? {p : Char → Bool} {c d : ByteCursor} {ch : Char}
    (h : c.nextIf? p = some (ch, d)) : c.next? = some (ch, d) := by
  unfold nextIf? at h
  split at h
  · split at h
    · exact h
    · cases h
  · cases h

/-- A move stays in the text, and it approaches the end of it. -/
theorem offset_lt_of_next? {c d : ByteCursor} {ch : Char} (h : c.next? = some (ch, d)) :
    d.source = c.source ∧ c.offset < d.offset ∧ c.offset < c.source.utf8ByteSize := by
  unfold next? at h
  split at h
  · cases h
  · next first hfirst =>
    cases h
    have hsize := ch.utf8Size_pos
    exact ⟨rfl, by simp only; omega, offset_lt_of_head? hfirst⟩

/-- Passes characters as long as they satisfy `p`, counting on from `n`. -/
def passWhileFrom (p : Char → Bool) (n : Nat) (c : ByteCursor) : Nat × ByteCursor :=
  match h : c.nextIf? p with
  | some (_, d) => passWhileFrom p (n + 1) d
  | none => (n, c)
termination_by c.source.utf8ByteSize - c.offset
decreasing_by
  obtain ⟨hsource, hoffset, hend⟩ := offset_lt_of_next? (next?_of_nextIf? h)
  rw [hsource]
  omega

/-- Passes characters as long as they satisfy `p` and gives their number. -/
def passWhile (p : Char → Bool) (c : ByteCursor) : Nat × ByteCursor := passWhileFrom p 0 c

/-- Passes the next character if it is `ch`, and says whether it was. -/
def accept (ch : Char) (c : ByteCursor) : Bool × ByteCursor :=
  match c.nextIf? (· == ch) with
  | some (_, d) => (true, d)
  | none => (false, c)

/-- The text from byte offset `start` up to the cursor, empty where the cut would be none. -/
def textSince (c : ByteCursor) (start : Nat) : String :=
  (textBetween? c.source start c.offset).getD ""

end ByteCursor

end LoxLex
