set_option relaxedAutoImplicit false
set_option autoImplicit false

/-!
# Operators and punctuation

The twenty lexemes with one fixed spelling. Sixteen of them are a single character; the others are
one of these followed by an equals sign.

## Main definitions

* `LoxLex.Operator` — the lexemes, with their spelling, their dump name and their debug text.
* `LoxLex.Operator.ofChar?` — the operator that is a single character.
* `LoxLex.Operator.withEqual?` — the operator that continues another one by an equals sign.

## Main results

* `LoxLex.Operator.ofChar?_eq_some_iff`, `LoxLex.Operator.withEqual?_eq_some_iff` — both read off
  the spellings.
-/

namespace LoxLex

/-- An operator or a punctuation mark. -/
inductive Operator where
  -- grouping
  | leftBrace | rightBrace | leftParen | rightParen
  -- separators
  | comma | semicolon | dot
  -- arithmetic
  | plus | minus | star | slash | percent
  -- comparison, negation and assignment
  | bang | bangEqual | equal | equalEqual | greater | greaterEqual | less | lessEqual
deriving DecidableEq, Repr

namespace Operator

/-- Every operator once. -/
def all : List Operator :=
  [ leftBrace, rightBrace, leftParen, rightParen, comma, semicolon, dot, plus, minus, star, slash,
    percent, bang, bangEqual, equal, equalEqual, greater, greaterEqual, less, lessEqual ]

/-- The spelling of an operator. -/
def spelling : Operator → List Char
  | leftBrace => ['\x7b']
  | rightBrace => ['\x7d']
  | leftParen => ['(']
  | rightParen => [')']
  | comma => [',']
  | semicolon => [';']
  | dot => ['.']
  | plus => ['+']
  | minus => ['-']
  | star => ['*']
  | slash => ['/']
  | percent => ['%']
  | bang => ['!']
  | bangEqual => ['!', '=']
  | equal => ['=']
  | equalEqual => ['=', '=']
  | greater => ['>']
  | greaterEqual => ['>', '=']
  | less => ['<']
  | lessEqual => ['<', '=']

/-- The name of an operator in token dumps. -/
def name : Operator → String
  | leftBrace => "OSQUIGGLE"
  | rightBrace => "CSQUIGGLE"
  | leftParen => "OPAREN"
  | rightParen => "CPAREN"
  | comma => "COMMA"
  | semicolon => "SEMI"
  | dot => "DOT"
  | plus => "PLUS"
  | minus => "MINUS"
  | star => "STAR"
  | slash => "SLASH"
  | percent => "MODULO"
  | bang => "BANG"
  | bangEqual => "BANG_EQUAL"
  | equal => "EQUAL"
  | equalEqual => "EQUAL_EQUAL"
  | greater => "GREATER"
  | greaterEqual => "GREATER_EQUAL"
  | less => "LESS"
  | lessEqual => "LESS_EQUAL"

/-- The debug text of an operator. -/
def debugText : Operator → String
  | leftBrace => "LeftBrace"
  | rightBrace => "RightBrace"
  | leftParen => "LeftParen"
  | rightParen => "RightParen"
  | comma => "Comma"
  | semicolon => "Semi"
  | dot => "Dot"
  | plus => "Plus"
  | minus => "Minus"
  | star => "Star"
  | slash => "Slash"
  | percent => "Modulo"
  | bang => "Not"
  | bangEqual => "NotEquals"
  | equal => "Assign"
  | equalEqual => "DoubleEquals"
  | greater => "GreaterThan"
  | greaterEqual => "GreaterThanEqual"
  | less => "LessThan"
  | lessEqual => "LessThanEqual"

/-- The operator that is spelled by one character alone. -/
def ofChar? (c : Char) : Option Operator := all.find? (fun op => op.spelling == [c])

/-- The operator that is spelled like `op` with an equals sign behind it. -/
def withEqual? (op : Operator) : Option Operator :=
  all.find? (fun longer => longer.spelling == op.spelling ++ ['='])

/-- Every operator is listed. -/
theorem mem_all (op : Operator) : op ∈ all := by cases op <;> decide

/-- No two operators share a spelling. -/
theorem spelling_injective {a b : Operator} (h : a.spelling = b.spelling) : a = b := by
  have distinct : ∀ a ∈ all, ∀ b ∈ all, a.spelling = b.spelling → a = b := by decide
  exact distinct a (mem_all a) b (mem_all b) h

/-- Looking up a spelling in the list of operators finds the one with that spelling. -/
theorem find?_spelling_eq_some_iff (text : List Char) (op : Operator) :
    all.find? (fun o => o.spelling == text) = some op ↔ op.spelling = text := by
  constructor
  · intro h
    simpa using List.find?_some h
  · rintro rfl
    cases hf : all.find? (fun o => o.spelling == op.spelling) with
    | none => simpa using List.find?_eq_none.1 hf op (mem_all op)
    | some o => exact congrArg some (spelling_injective (by simpa using List.find?_some hf))

/-- A character is an operator if it spells it. -/
theorem ofChar?_eq_some_iff (c : Char) (op : Operator) :
    ofChar? c = some op ↔ op.spelling = [c] :=
  find?_spelling_eq_some_iff [c] op

/-- An operator is continued by the one that is spelled with an equals sign more. -/
theorem withEqual?_eq_some_iff (op longer : Operator) :
    op.withEqual? = some longer ↔ longer.spelling = op.spelling ++ ['='] :=
  find?_spelling_eq_some_iff (op.spelling ++ ['=']) longer

end Operator

end LoxLex
