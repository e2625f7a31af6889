import LoxLex.Binary64.Reading
import LoxLex.Character
import LoxLex.Cursor
import LoxLex.LexError
import LoxLex.Token

set_option relaxedAutoImplicit false
set_option autoImplicit false

/-!
# One step through a text

At a cursor, a text goes on with one of four things: a blank or a comment, which mean nothing; a
lexeme, which has a kind; an error; or its end. A step says which, and leads to the cursor behind
it. What a lexeme is depends on its first character, and on at most two characters behind its
last one.

## Main definitions

* `LoxLex.Step` — the four outcomes.
* `LoxLex.Cursor.stringLexeme`, `numberLexeme`, `wordLexeme`, `operatorLexeme` — the lexemes by
  their first character.
* `LoxLex.Cursor.step` — one step.

## Main results

* `LoxLex.Cursor.rest_length_lt_of_step` — a step that does not find the end passes at least one
  character.
-/

namespace LoxLex

/-- What a text goes on with, and the cursor behind it. -/
inductive Step where
  /-- A blank or a comment. -/
  | skip (after : Cursor)
  /-- A lexeme of the given kind. -/
  | lexeme (kind : Kind) (after : Cursor)
  /-- Characters that form no lexeme. -/
  | fault (error : LexError) (after : Cursor)
  /-- Nothing more. -/
  | finish

namespace Cursor

/-- The rest of a string that began at `start`; the opening quote is passed already. The string
goes on to the next quote, over as many lines as it takes, and no character in it is special. -/
def stringLexeme (start : Location) (c : Cursor) : Step :=
  let close := (c.passWhile (· != '\x22')).2
  match close.accept '\x22' with
  | (true, after) => .lexeme (.literal (.string (String.ofList (close.textSince c.offset)))) after
  | (false, after) => .fault (.unterminatedString ⟨start, after.location⟩) after

/-- The cursor behind the rest of a number: further digits, then a point and digits if there is a
digit behind the point. -/
def afterNumber (c : Cursor) : Cursor :=
  let whole := (c.passWhile isDigit).2
  if whole.head? = some '.' ∧ whole.second?.any isDigit then
    match whole.next? with
    | some (_, fraction) => (fraction.passWhile isDigit).2
    | none => whole
  else whole

/-- The rest of a number that began at byte offset `start`; its first digit is passed already.
The text of a number always is a decimal text, so the zero is never used. -/
def numberLexeme (start : Nat) (c : Cursor) : Step :=
  let after := c.afterNumber
  .lexeme (.literal (.number ((Binary64.ofText? (after.textSince start)).getD .zero))) after

/-- The rest of a word that began at byte offset `start`; its first character is passed already.
The whole word decides whether it is a keyword. -/
def wordLexeme (start : Nat) (c : Cursor) : Step :=
  let after := (c.passWhile isWordPart).2
  match Keyword.ofSpelling? (String.ofList (after.textSince start)) with
  | some word => .lexeme (.keyword word) after
  | none => .lexeme .identifier after

/-- An operator whose first character is passed already. It takes an equals sign behind it into
the lexeme if the two together are an operator. -/
def operatorLexeme (op : Operator) (c : Cursor) : Step :=
  match op.withEqual? with
  | none => .lexeme (.operator op) c
  | some longer =>
    match c.accept '=' with
    | (true, after) => .lexeme (.operator longer) after
    | (false, after) => .lexeme (.operator op) after

/-- One step through the text. Two slashes begin a comment, which ends before the next newline. -/
def step (c : Cursor) : Step :=
  match c.next? with
  | none => .finish
  | some (ch, d) =>
    if isBlank ch then .skip d
    else if ch = '\x22' then d.stringLexeme c.location
    else if isDigit ch then d.numberLexeme c.offset
    else if isWordStart ch then d.wordLexeme c.offset
    else if ch = '/' ∧ d.head? = some '/' then .skip (d.passWhile (· != '\n')).2
    else
      match Operator.ofChar? ch with
      | some op => d.operatorLexeme op
      | none => .fault (.unexpectedCharacter ch ⟨c.location, d.location⟩) d

end Cursor

/-- The cursor behind a step, none at the end of the text. -/
def Step.after? : Step → Option Cursor
  | skip after => some after
  | lexeme _ after => some after
  | fault _ after => some after
  | finish => none

namespace Cursor

/-- The rest of a string never adds to what is ahead. -/
theorem stringLexeme_rest_length_le {start : Location} {c d : Cursor}
    (h : (c.stringLexeme start).after? = some d) : d.rest.length ≤ c.rest.length := by
  have run := passWhile_rest_length_le (· != '\x22') c
  have close := accept_rest_length_le '\x22' (c.passWhile (· != '\x22')).2
  unfold stringLexeme at h
  simp only at h
  split at h
  all_goals
    next hm =>
      rw [hm] at close
      cases h
      exact Nat.le_trans close run

/-- The rest of a number never adds to what is ahead. -/
theorem afterNumber_rest_length_le (c : Cursor) : c.afterNumber.rest.length ≤ c.rest.length := by
  have whole := passWhile_rest_length_le isDigit c
  unfold afterNumber
  simp only
  split
  · split
    · next fraction h =>
      have point := next?_rest_length h
      have run := passWhile_rest_length_le isDigit fraction
      omega
    · exact whole
  · exact whole

/-- The rest of a word never adds to what is ahead. -/
theorem wordLexeme_rest_length_le {start : Nat} {c d : Cursor}
    (h : (c.wordLexeme start).after? = some d) : d.rest.length ≤ c.rest.length := by
  have run := passWhile_rest_length_le isWordPart c
  unfold wordLexeme at h
  simp only at h
  split at h <;> cases h <;> exact run

/-- The rest of an operator never adds to what is ahead. -/
theorem operatorLexeme_rest_length_le {op : Operator} {c d : Cursor}
    (h : (c.operatorLexeme op).after? = some d) : d.rest.length ≤ c.rest.length := by
  have sign := accept_rest_length_le '=' c
  unfold operatorLexeme at h
  split at h
  · cases h; exact Nat.le_refl _
  · split at h
    all_goals
      next hm =>
        rw [hm] at sign
        cases h
        exact sign

/-- A step that does not find the end passes at least one character. -/
theorem rest_length_lt_of_step {c d : Cursor} (h : c.step.after? = some d) :
    d.rest.length < c.rest.length := by
  unfold step at h
  split at h
  · cases h
  · next ch e ha =>
    have first := next?_rest_length ha
    suffices d.rest.length ≤ e.rest.length by omega
    split at h
    · cases h; exact Nat.le_refl _
    · split at h
      · exact stringLexeme_rest_length_le h
      · split at h
        · cases h; exact afterNumber_rest_length_le e
        · split at h
          · exact wordLexeme_rest_length_le h
          · split at h
            · cases h; exact passWhile_rest_length_le _ e
            · split at h
              · exact operatorLexeme_rest_length_le h
              · cases h; exact Nat.le_refl _

end Cursor

end LoxLex
