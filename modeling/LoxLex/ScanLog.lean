import LoxLex.Log
import LoxLex.Scan

set_option relaxedAutoImplicit false
set_option autoImplicit false

/-!
# Scanning with a log

A scanner makes a record of each token that it finds. A scan of a whole text also records the
errors, and at its end the numbers of both.

## Main definitions

* `LoxLex.Cursor.emit` — a token, recorded where it is made.
* `LoxLex.Scanner.nextLogged`, `LoxLex.Scanner.takeLogged` — one item, several items.
* `LoxLex.scanLogged` — a whole text.

## Main results

* `LoxLex.Scanner.nextLogged_value`, `LoxLex.Scanner.takeLogged_value` — the log does not change
  what is found.
* `LoxLex.scanLogged_value` — nor does it change the scan of a text.
-/

namespace LoxLex

namespace Cursor

/-- Makes the token of a kind that reaches from one cursor to a later one, and records it. -/
def emit (start : Cursor) (kind : Kind) (stop : Cursor) : Logged Item := do
  let t := start.tokenTo kind stop
  Logged.note .trace (toString t)
  pure (.token t)

/-- The first item in front of a cursor, and the cursor behind it. A token is recorded where it is
made. Blanks and comments on the way leave no record, nor does an error. -/
def nextItemLogged (c : Cursor) : Logged (Item × Cursor) :=
  match _h : c.step with
  | .skip d => d.nextItemLogged
  | .lexeme kind d => do
    let item ← c.emit kind d
    pure (item, d)
  | .fault e d => pure (.error e, d)
  | .finish => do
    let item ← c.emit .endOfInput c
    pure (item, c)
termination_by c.rest.length
decreasing_by exact rest_length_lt_of_step (by rw [_h]; rfl)

/-- The log does not change which item comes next. -/
@[simp] theorem nextItemLogged_value (c : Cursor) : c.nextItemLogged.value = c.nextItem := by
  fun_induction nextItemLogged c with
  | case1 c d hstep ih =>
    rw [ih, nextItem.eq_def c]
    split <;> simp_all
  | case2 c kind d hstep | case3 c e d hstep | case4 c hstep =>
    rw [nextItem]
    split <;> simp_all
    rfl

end Cursor

namespace Scanner

/-- The next item, if the end was not yet given; a token is recorded. -/
def nextLogged (s : Scanner) : Logged (Option Item × Scanner) :=
  if s.finished then pure (none, s)
  else do
    let (item, cursor) ← s.cursor.nextItemLogged
    pure (some item, ⟨cursor, item.isEnd⟩)

/-- The log does not change what is found. -/
@[simp] theorem nextLogged_value (s : Scanner) : s.nextLogged.value = s.next := by
  unfold nextLogged next
  split
  · rfl
  · rw [← Cursor.nextItemLogged_value]
    rfl

/-- The next `n` items, fewer if the text ends before; the tokens are recorded. -/
def takeLogged : Nat → Scanner → Logged (List Item × Scanner)
  | 0, s => pure ([], s)
  | n + 1, s => do
    let (found, after) ← s.nextLogged
    match found with
    | none => pure ([], after)
    | some item =>
      let (items, last) ← after.takeLogged n
      pure (item :: items, last)

/-- The tokens and errors among the next `n` items. Errors are recorded as they are found. -/
def collectLogged : Nat → Scanner → Logged Scan
  | 0, _ => pure ⟨[], []⟩
  | n + 1, s => do
    let (found, after) ← s.nextLogged
    match found with
    | none => pure ⟨[], []⟩
    | some (.token t) =>
      let others ← after.collectLogged n
      pure { others with tokens := t :: others.tokens }
    | some (.error e) =>
      Logged.note .debug e.message
      let others ← after.collectLogged n
      pure { others with errors := e :: others.errors }

/-- The log does not change which items are taken. -/
@[simp] theorem takeLogged_value (n : Nat) (s : Scanner) :
    (s.takeLogged n).value = s.take n := by
  induction n generalizing s with
  | zero => rfl
  | succ n ih =>
    simp only [takeLogged, take, bind, nextLogged_value]
    cases hn : s.next with
    | mk found after =>
      cases found with
      | none => rfl
      | some item => simp only [pure, ih]

/-- Collecting items sorts the same items that are taken. -/
theorem collectLogged_value (n : Nat) (s : Scanner) :
    (s.collectLogged n).value = Scan.ofItems (s.take n).1 := by
  induction n generalizing s with
  | zero => rfl
  | succ n ih =>
    simp only [collectLogged, take, bind, nextLogged_value]
    cases hn : s.next with
    | mk found after =>
      cases found with
      | none => rfl
      | some item => cases item <;> simp only [pure, ih] <;> rfl

end Scanner

/-- The tokens and errors of a text, with the log of the scan. There is at most one item more than
there are characters. -/
def scanLogged (source : String) : Logged Scan := do
  let result ← (Scanner.ofString source).collectLogged (source.toList.length + 1)
  Logged.note .debug
    ("scanned " ++ toString result.tokens.length ++ " tokens with " ++
      toString result.errors.length ++ " errors")
  pure result

/-- The log does not change the scan of a text. -/
theorem scanLogged_value (source : String) : (scanLogged source).value = scan source :=
  Scanner.collectLogged_value (source.toList.length + 1) (Scanner.ofString source)

end LoxLex
