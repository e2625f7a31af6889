import LoxLex.ByteCursor
import LoxLex.Failure
import LoxLex.Scan

set_option relaxedAutoImplicit false
set_option autoImplicit false

/-!
# Scanners that insist on what they read

A scanner that keeps a byte offset cuts everything that it looks at out of the source, and it reads
the value of a number from such a cut. Neither has to succeed: there may be no text between two
offsets, and a text may stand for no number. A strict scanner does not make up for that by an empty
text or by a zero. It fails, and says what it asked for.

## Main definitions

* `LoxLex.Misread` — what was asked for and is not there.
* `LoxLex.Strict.cut`, `LoxLex.Strict.readNumber` — the two things that may fail.
* `LoxLex.Strict.next`, `nextIf`, `passWhile`, `accept` — the moves of a cursor.
* `LoxLex.Strict.passGap`, `LoxLex.Strict.lexeme` — blanks and comments, and lexemes.
* `LoxLex.Strict.step`, `LoxLex.Strict.nextItem` — one step through a text, and one item.
* `LoxLex.Strict.Scanner`, `LoxLex.Strict.scan` — a scanner, and the scan of a whole text.

## Main results

* `LoxLex.Strict.offset_lt_of_step` — blanks and comments use up the text, which is the measure of
  the loop that passes them.
-/

namespace LoxLex

/-- Something that a strict scanner asked for and that is not there. -/
inductive Misread where
  /-- There is no text between two byte offsets. -/
  | cut (first last : Nat)
  /-- A text stands for no number. -/
  | number (text : String)
deriving DecidableEq

namespace Strict

/-- The text between two byte offsets. -/
def cut (source : String) (first last : Nat) : Except Misread String :=
  match textBetween? source first last with
  | some text => .ok text
  | none => .error (.cut first last)

/-- The number that a text stands for. -/
def readNumber (text : String) : Except Misread Binary64 :=
  match Binary64.ofText? text.toList with
  | some value => .ok value
  | none => .error (.number text)

/-! ## Cursors -/

/-- What is still ahead. -/
def rest (c : ByteCursor) : Except Misread String := cut c.source c.offset c.source.utf8ByteSize

/-- The next character. -/
def head (c : ByteCursor) : Except Misread (Option Char) := do
  return (← rest c).toList.head?

/-- The character after the next one. -/
def second (c : ByteCursor) : Except Misread (Option Char) := do
  return (← rest c).toList.tail.head?

/-- The text from byte offset `start` up to the cursor. -/
def textSince (c : ByteCursor) (start : Nat) : Except Misread String := cut c.source start c.offset

/-- Passes the next character and gives it back with the moved cursor. -/
def next (c : ByteCursor) : Except Misread (Option (Char × ByteCursor)) := do
  match ← head c with
  | none => return none
  | some ch => return some (ch, ⟨c.source, c.offset + ch.utf8Size, c.location.step ch⟩)

/-- Passes the next character if it satisfies `p`. -/
def nextIf (p : Char → Bool) (c : ByteCursor) : Except Misread (Option (Char × ByteCursor)) := do
  match ← head c with
  | none => return none
  | some ch => if p ch then next c else return none

/-- What a strict look ahead sees is seen. -/
theorem head?_of_head {c : ByteCursor} {found : Option Char} (h : head c = .ok found) :
    c.head? = found := by
  unfold head rest cut at h
  unfold ByteCursor.head? ByteCursor.rest
  cases hcut : textBetween? c.source c.offset c.source.utf8ByteSize <;> rw [hcut] at h <;> cases h
  rfl

/-- A strict move is a move. -/
theorem next?_of_next {c d : ByteCursor} {ch : Char} (h : next c = .ok (some (ch, d))) :
    c.next? = some (ch, d) := by
  obtain ⟨found, hhead, h⟩ := bind_eq_ok_iff.1 h
  cases found with
  | none => cases h
  | some first =>
    cases h
    rw [ByteCursor.next?, head?_of_head hhead]

/-- A conditional move is a move. -/
theorem next_of_nextIf {p : Char → Bool} {c d : ByteCursor} {ch : Char}
    (h : nextIf p c = .ok (some (ch, d))) : next c = .ok (some (ch, d)) := by
  obtain ⟨found, -, h⟩ := bind_eq_ok_iff.1 h
  cases found with
  | none => cases h
  | some first =>
    simp only at h
    split at h
    · exact h
    · cases h

/-- `Ahead c d` says that `d` stands in the same text as `c`, and not before it. -/
def Ahead (c d : ByteCursor) : Prop := d.source = c.source ∧ c.offset ≤ d.offset

/-- A conditional move leads forward, and there was something to pass. -/
theorem offset_lt_of_nextIf {p : Char → Bool} {c d : ByteCursor} {ch : Char}
    (h : nextIf p c = .ok (some (ch, d))) :
    d.source = c.source ∧ c.offset < d.offset ∧ c.offset < c.source.utf8ByteSize :=
  ByteCursor.offset_lt_of_next? (next?_of_next (next_of_nextIf h))

/-- Passes characters as long as they satisfy `p`, counting on from `n`. -/
def passWhileFrom (p : Char → Bool) (n : Nat) (c : ByteCursor) :
    Except Misread (Nat × ByteCursor) :=
  match h : nextIf p c with
  | .error fault => .error fault
  | .ok (some (_, d)) => passWhileFrom p (n + 1) d
  | .ok none => .ok (n, c)
termination_by c.source.utf8ByteSize - c.offset
decreasing_by
  obtain ⟨hsource, hoffset, hend⟩ := offset_lt_of_nextIf h
  rw [hsource]
  omega

/-- Passes characters as long as they satisfy `p` and gives their number. -/
def passWhile (p : Char → Bool) (c : ByteCursor) : Except Misread (Nat × ByteCursor) :=
  passWhileFrom p 0 c

/-- A run of moves leads forward. -/
theorem ahead_of_passWhileFrom {p : Char → Bool} {n m : Nat} {c d : ByteCursor}
    (h : passWhileFrom p n c = .ok (m, d)) : Ahead c d := by
  fun_induction passWhileFrom p n c with
  | case1 => cases h
  | case2 n c ch e hnext ih =>
    obtain ⟨hsource, hoffset, -⟩ := offset_lt_of_nextIf hnext
    obtain ⟨hsource', hoffset'⟩ := ih h
    exact ⟨hsource'.trans hsource, by omega⟩
  | case3 =>
    cases h
    exact ⟨rfl, Nat.le_refl _⟩

/-- Passes the next character if it is `ch`, and says whether it was. -/
def accept (ch : Char) (c : ByteCursor) : Except Misread (Bool × ByteCursor) := do
  match ← nextIf (· == ch) c with
  | some (_, d) => return (true, d)
  | none => return (false, c)

/-- An attempt to match leads forward. -/
theorem ahead_of_accept {ch : Char} {c d : ByteCursor} {matched : Bool}
    (h : accept ch c = .ok (matched, d)) : Ahead c d := by
  obtain ⟨found, hnext, h⟩ := bind_eq_ok_iff.1 h
  cases found with
  | none =>
    cases h
    exact ⟨rfl, Nat.le_refl _⟩
  | some passed =>
    cases h
    obtain ⟨hsource, hoffset, -⟩ := offset_lt_of_nextIf hnext
    exact ⟨hsource, Nat.le_of_lt hoffset⟩

/-! ## Blanks and comments -/

/-- The cursor behind the blank or comment that begins with `ch`, none if no such thing does; the
character is passed already. Two slashes begin a comment, which ends before the next newline. -/
def passGap (ch : Char) (c : ByteCursor) : Except Misread (Option ByteCursor) := do
  if isBlank ch then return some c
  else if ch = '/' then
    match ← accept '/' c with
    | (true, body) => return some (← passWhile (· != '\n') body).2
    | (false, _) => return none
  else return none

/-- Blanks and comments lead forward. -/
theorem ahead_of_passGap {ch : Char} {c d : ByteCursor} (h : passGap ch c = .ok (some d)) :
    Ahead c d := by
  unfold passGap at h
  split at h
  · cases h
    exact ⟨rfl, Nat.le_refl _⟩
  · split at h
    · obtain ⟨⟨comment, body⟩, haccept, h⟩ := bind_eq_ok_iff.1 h
      cases comment with
      | false => cases h
      | true =>
        obtain ⟨⟨n, after⟩, hrun, h⟩ := bind_eq_ok_iff.1 h
        cases h
        obtain ⟨hsource, hoffset⟩ := ahead_of_accept haccept
        obtain ⟨hsource', hoffset'⟩ := ahead_of_passWhileFrom hrun
        exact ⟨hsource'.trans hsource, Nat.le_trans hoffset hoffset'⟩
    · cases h

/-! ## Lexemes -/

/-- What a lexeme is, or what is wrong with it, and the cursor behind it. -/
abbrev Lexed : Type := Except LexError Kind × ByteCursor

/-- The rest of a string that began at `start`; the opening quote is passed already. -/
def stringLexeme (start : Location) (c : ByteCursor) : Except Misread Lexed := do
  let (_, close) ← passWhile (· != '\x22') c
  let body ← textSince close c.offset
  match ← accept '\x22' close with
  | (true, after) => return (.ok (.literal (.string body)), after)
  | (false, after) => return (.error (.unterminatedString ⟨start, after.location⟩), after)

/-- The point and the digits behind it, if there is a digit behind the point. -/
def passFraction (c : ByteCursor) : Except Misread ByteCursor := do
  if (← head c) = some '.' then
    if (← second c).any isDigit then
      match ← next c with
      | some (_, fraction) => return (← passWhile isDigit fraction).2
      | none => return (← passWhile isDigit c).2
    else return c
  else return c

/-- The rest of a number that began at byte offset `start`; its first digit is passed already. -/
def numberLexeme (start : Nat) (c : ByteCursor) : Except Misread Lexed := do
  let (_, whole) ← passWhile isDigit c
  let after ← passFraction whole
  let value ← readNumber (← textSince after start)
  return (.ok (.literal (.number value)), after)

/-- The rest of a word that began at byte offset `start`; its first character is passed already. -/
def wordLexeme (start : Nat) (c : ByteCursor) : Except Misread Lexed := do
  let (_, after) ← passWhile isWordPart c
  match Keyword.ofSpelling? (← textSince after start) with
  | some word => return (.ok (.keyword word), after)
  | none => return (.ok .identifier, after)

/-- An operator whose first character is passed already. It takes an equals sign behind it into
the lexeme if the two together are an operator. -/
def operatorLexeme (op : Operator) (c : ByteCursor) : Except Misread Lexed :=
  match op.withEqual? with
  | none => return (.ok (.operator op), c)
  | some longer => do
    match ← accept '=' c with
    | (true, after) => return (.ok (.operator longer), after)
    | (false, after) => return (.ok (.operator op), after)

/-- The lexeme that begins with `ch` at the cursor `start`; the character is passed already. -/
def lexeme (start : ByteCursor) (ch : Char) (c : ByteCursor) : Except Misread Lexed :=
  if ch = '\x22' then stringLexeme start.location c
  else if isDigit ch then numberLexeme start.offset c
  else if isWordStart ch then wordLexeme start.offset c
  else
    match Operator.ofChar? ch with
    | some op => operatorLexeme op c
    | none => return (.error (.unexpectedCharacter ch ⟨start.location, c.location⟩), c)

/-! ## Items -/

/-- What a text goes on with, and the cursor behind it. -/
inductive Step where
  /-- A blank or a comment. -/
  | skip (after : ByteCursor)
  /-- A token or an error. -/
  | found (item : Item) (after : ByteCursor)

/-- The token of a kind that reaches from one cursor to a later one. -/
def emit (start : ByteCursor) (kind : Kind) (stop : ByteCursor) : Except Misread Step := do
  return .found (.token ⟨kind, ← textSince stop start.offset, ⟨start.location, stop.location⟩⟩) stop

/-- One step through the text. -/
def step (c : ByteCursor) : Except Misread Step := do
  match ← next c with
  | none => emit c .endOfInput c
  | some (ch, d) =>
    match ← passGap ch d with
    | some after => return .skip after
    | none =>
      match ← lexeme c ch d with
      | (.ok kind, after) => emit c kind after
      | (.error error, after) => return .found (.error error) after

/-- A token is nothing that is passed over. -/
theorem emit_ne_skip {start stop d : ByteCursor} {kind : Kind} :
    emit start kind stop ≠ .ok (.skip d) := by
  intro h
  obtain ⟨lexeme, -, h⟩ := bind_eq_ok_iff.1 h
  cases h

/-- What is passed over uses up some of the text. -/
theorem offset_lt_of_step {c d : ByteCursor} (h : step c = .ok (.skip d)) :
    d.source = c.source ∧ c.offset < d.offset ∧ c.offset < c.source.utf8ByteSize := by
  obtain ⟨found, hnext, h⟩ := bind_eq_ok_iff.1 h
  cases found with
  | none => exact absurd h emit_ne_skip
  | some passed =>
    obtain ⟨ch, e⟩ := passed
    obtain ⟨hsource, hoffset, hend⟩ := ByteCursor.offset_lt_of_next? (next?_of_next hnext)
    obtain ⟨gap, hgap, h⟩ := bind_eq_ok_iff.1 h
    cases gap with
    | some after =>
      cases h
      obtain ⟨hsource', hoffset'⟩ := ahead_of_passGap hgap
      exact ⟨hsource'.trans hsource, by omega, hend⟩
    | none =>
      obtain ⟨⟨result, after⟩, -, h⟩ := bind_eq_ok_iff.1 h
      cases result with
      | ok kind => exact absurd h emit_ne_skip
      | error error => cases h

/-- The first item in front of a cursor, and the cursor behind it. Blanks and comments are passed
over, and where nothing else is left the item is the end of the text. -/
def nextItem (c : ByteCursor) : Except Misread (Item × ByteCursor) :=
  match _h : step c with
  | .error fault => .error fault
  | .ok (.skip d) => nextItem d
  | .ok (.found item d) => .ok (item, d)
termination_by c.source.utf8ByteSize - c.offset
decreasing_by
  obtain ⟨hsource, hoffset, hend⟩ := offset_lt_of_step _h
  rw [hsource]
  omega

/-- A cursor on its way through a text. -/
structure Scanner where
  /-- The place behind the latest item. -/
  cursor : ByteCursor
  /-- Whether the token for the end of the text was given. -/
  finished : Bool

/-- The next `n` items, fewer if the text ends before. -/
def Scanner.take : Nat → Scanner → Except Misread (List Item × Scanner)
  | 0, s => return ([], s)
  | n + 1, s => do
    if s.finished then return ([], s)
    else
      let (item, cursor) ← nextItem s.cursor
      let (items, last) ← Scanner.take n ⟨cursor, item.isEnd⟩
      return (item :: items, last)

/-- The tokens and the errors of a text. There is at most one item more than there are
characters. -/
def scan (source : String) : Except Misread Scan := do
  let (items, _) ← Scanner.take (source.toList.length + 1) ⟨.ofString source, false⟩
  return .ofItems items

end Strict

end LoxLex
