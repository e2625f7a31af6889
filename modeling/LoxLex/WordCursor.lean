import LoxLex.CursorOperation

set_option relaxedAutoImplicit false
set_option autoImplicit false

/-!
# Cursors with positions in machine words

A machine keeps the byte offset, the line and the column of a cursor in words of 64 bits, and counts
in such words too. Its additions are taken modulo `2 ^ 64`, but for the one in the count, which
stays at the largest word. A cursor of this kind also remembers whether the exact sum of one of
these additions was ever too large for a word. It is an observer only: no operation depends on it.

A text in memory has less than `2 ^ 63` bytes, so a word can hold the offset of each of its bytes.

## Main definitions

* `LoxLex.wrappingAdd`, `LoxLex.saturatingAdd` — the two additions, with `LoxLex.WordSum` for a sum
  that may be too large.
* `LoxLex.maxTextSize` — the largest number of bytes of a text.
* `LoxLex.WordCursor` — a text, and a position in words.
* `LoxLex.WordCursor.numbers` — the same position in exact numbers.
* `LoxLex.WordCursor.next?`, `nextIf?`, `passWhile`, `accept` — the moves.
* `LoxLex.WordCursor.perform`, `LoxLex.WordCursor.performAll` — operations.

## Main results

* `LoxLex.WordCursor.offset_lt_of_next?` — moves approach the end of the text, since the offset
  does not wrap around.
-/

namespace LoxLex

/-- A sum of two words. -/
structure WordSum where
  /-- The word that is kept. -/
  value : UInt64
  /-- Whether the exact sum is too large for a word. -/
  exceeds : Bool
deriving DecidableEq

/-- The sum of two words modulo `2 ^ 64`. -/
def wrappingAdd (a b : UInt64) : WordSum := ⟨a + b, decide (UInt64.size ≤ a.toNat + b.toNat)⟩

/-- The sum of two words, or the largest word where the exact sum is larger than it. -/
def saturatingAdd (a b : UInt64) : WordSum :=
  if UInt64.size ≤ a.toNat + b.toNat then ⟨UInt64.ofNat (UInt64.size - 1), true⟩
  else ⟨a + b, false⟩

/-- The largest number of bytes that a text has in memory. -/
def maxTextSize : Nat := Nat.pow 2 63 - 1

/-- It is the largest number of 63 binary digits. -/
theorem maxTextSize_eq : maxTextSize = 0x7fffffffffffffff := rfl

/-- A position inside a text, in words. -/
structure WordCursor where
  /-- The whole text. -/
  source : String
  /-- It is no larger than texts are. -/
  size_le : source.utf8ByteSize ≤ maxTextSize
  /-- The number of UTF-8 bytes already passed. -/
  offset : UInt64
  /-- The line of the next character. -/
  line : UInt64
  /-- The column of the next character. -/
  col : UInt64
  /-- Whether a sum was too large for a word. -/
  overflowed : Bool

namespace WordCursor

/-- The cursor in front of the first character of a text. -/
def ofString (source : String) (size_le : source.utf8ByteSize ≤ maxTextSize) : WordCursor :=
  ⟨source, size_le, 0, 1, 1, false⟩

/-- The position in exact numbers. -/
def numbers (c : WordCursor) : ByteCursor :=
  ⟨c.source, c.offset.toNat, ⟨c.line.toNat, c.col.toNat⟩⟩

/-- The next character. -/
def head? (c : WordCursor) : Option Char := c.numbers.head?

/-- The character after the next one. -/
def second? (c : WordCursor) : Option Char := c.numbers.second?

/-- Whether all bytes are passed. -/
def atEnd (c : WordCursor) : Bool := c.numbers.atEnd

/-- The text from byte offset `start` up to the cursor, empty where the cut would be none. -/
def textSince (c : WordCursor) (start : Nat) : String := c.numbers.textSince start

/-- The cursor with its position changed behind a character: the offset grows by the bytes of the
character; a newline leads to the next line, and every other character to the next column. -/
def pass (c : WordCursor) (ch : Char) : WordCursor :=
  let offset := wrappingAdd c.offset (UInt64.ofNat ch.utf8Size)
  if ch = '\n' then
    let line := wrappingAdd c.line 1
    { c with
      offset := offset.value
      line := line.value
      col := 1
      overflowed := c.overflowed || offset.exceeds || line.exceeds }
  else
    let col := wrappingAdd c.col 1
    { c with
      offset := offset.value
      col := col.value
      overflowed := c.overflowed || offset.exceeds || col.exceeds }

/-- Passes the next character and gives it back with the moved cursor. -/
def next? (c : WordCursor) : Option (Char × WordCursor) :=
  match c.head? with
  | none => none
  | some ch => some (ch, c.pass ch)

/-- Passes the next character if it satisfies `p`. -/
def nextIf? (p : Char → Bool) (c : WordCursor) : Option (Char × WordCursor) :=
  match c.head? with
  | some ch => if p ch then c.next? else none
  | none => none

/-- A conditional move is a move. -/
theorem next?_of_nextIf? {p : Char → Bool} {c d : WordCursor} {ch : Char}
    (h : c.nextIf? p = some (ch, d)) : c.next? = some (ch, d) := by
  unfold nextIf? at h
  split at h
  · split at h
    · exact h
    · cases h
  · cases h

/-- The text stays the same behind a character. -/
@[simp] theorem pass_source (c : WordCursor) (ch : Char) : (c.pass ch).source = c.source := by
  unfold pass
  split <;> rfl

/-- The offset behind a character. -/
@[simp] theorem pass_offset (c : WordCursor) (ch : Char) :
    (c.pass ch).offset = c.offset + UInt64.ofNat ch.utf8Size := by
  unfold pass
  split <;> rfl

/-- An offset inside the text does not wrap around behind a character. -/
theorem toNat_offset_pass {c : WordCursor} (h : c.offset.toNat < c.source.utf8ByteSize)
    (ch : Char) : (c.pass ch).offset.toNat = c.offset.toNat + ch.utf8Size := by
  have hsize := c.size_le
  have hwidth := ch.utf8Size_le_four
  rw [maxTextSize_eq] at hsize
  have hword : ch.utf8Size < UInt64.size := by
    unfold UInt64.size
    omega
  rw [pass_offset, UInt64.toNat_add, UInt64.toNat_ofNat_of_lt' hword]
  omega

/-- A move stays in the text, and it approaches the end of it. -/
theorem offset_lt_of_next? {c d : WordCursor} {ch : Char} (h : c.next? = some (ch, d)) :
    d.source = c.source ∧ c.offset.toNat < d.offset.toNat ∧
      c.offset.toNat < c.source.utf8ByteSize := by
  unfold next? at h
  split at h
  · cases h
  · next first hfirst =>
    cases h
    have hend : c.offset.toNat < c.source.utf8ByteSize := ByteCursor.offset_lt_of_head? hfirst
    have hpos := ch.utf8Size_pos
    rw [toNat_offset_pass hend]
    exact ⟨pass_source c ch, by omega, hend⟩

/-- Passes characters as long as they satisfy `p`, counting on from `n`. -/
def passWhileFrom (p : Char → Bool) (n : UInt64) (c : WordCursor) : UInt64 × WordCursor :=
  match _h : c.nextIf? p with
  | some (_, d) =>
    let count := saturatingAdd n 1
    passWhileFrom p count.value { d with overflowed := d.overflowed || count.exceeds }
  | none => (n, c)
termination_by c.source.utf8ByteSize - c.offset.toNat
decreasing_by
  obtain ⟨hsource, hoffset, hend⟩ := offset_lt_of_next? (next?_of_nextIf? _h)
  simp only [hsource]
  omega

/-- Passes characters as long as they satisfy `p` and gives their number. -/
def passWhile (p : Char → Bool) (c : WordCursor) : UInt64 × WordCursor := passWhileFrom p 0 c

/-- Passes the next character if it is `ch`, and says whether it was. -/
def accept (ch : Char) (c : WordCursor) : Bool × WordCursor :=
  match c.nextIf? (· == ch) with
  | some (_, d) => (true, d)
  | none => (false, c)

/-- Performs an operation. -/
def perform (c : WordCursor) : CursorOp → CursorReply × WordCursor
  | .head => (.char c.head?, c)
  | .second => (.char c.second?, c)
  | .atEnd => (.flag c.atEnd, c)
  | .next => CursorReply.ofMove c c.next?
  | .nextIf p => CursorReply.ofMove c (c.nextIf? p)
  | .passWhile p => ((c.passWhile p).map (fun n => .count n.toNat) id)
  | .accept ch => ((c.accept ch).map .flag id)
  | .textSince start => (.text (c.textSince start), c)

/-- Performs operations one after the other. -/
def performAll (c : WordCursor) : List CursorOp → List CursorReply × WordCursor
  | [] => ([], c)
  | op :: ops =>
    let (reply, d) := c.perform op
    let (replies, last) := d.performAll ops
    (reply :: replies, last)

end WordCursor

end LoxLex
