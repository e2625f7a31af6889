import LoxLex.Keyword
import LoxLex.Literal
import LoxLex.Location
import LoxLex.Operator

set_option relaxedAutoImplicit false
set_option autoImplicit false

/-!
# Tokens

A token is a lexeme together with its kind and its place in the text. Only literal tokens carry a
value.

## Main definitions

* `LoxLex.Kind` — what a token is.
* `LoxLex.Token` — kind, lexeme and span.
* `LoxLex.Token.canonical` — the line of a token dump.
* `LoxLex.Token.toString`, `LoxLex.Token.debugText` — the two other texts of a token.
-/

namespace LoxLex

/-- What a token is. -/
inductive Kind where
  /-- An operator or a punctuation mark. -/
  | operator (op : Operator)
  /-- A word that is not reserved; its name is the lexeme. -/
  | identifier
  /-- A string or a number. -/
  | literal (value : Literal)
  /-- A reserved word. -/
  | keyword (word : Keyword)
  /-- The end of the text. -/
  | endOfInput
deriving DecidableEq

namespace Kind

/-- The name of a kind in token dumps. -/
def name : Kind → String
  | operator op => op.name
  | identifier => "IDENTIFIER"
  | literal value => value.name
  | keyword word => word.name
  | endOfInput => "EOF"

/-- The debug text of a kind. -/
def debugText : Kind → String
  | operator op => op.debugText
  | identifier => "Identifier"
  | literal value => DebugNotation.wrap "Literal" value.debugText
  | keyword word => DebugNotation.wrap "Keyword" word.debugText
  | endOfInput => "EndOfInput"

/-- Equality with literals compared by value. -/
def equal : Kind → Kind → Bool
  | literal a, literal b => a.equal b
  | a, b => a == b

/-- The value that comes with a kind. -/
def literal? : Kind → Option Literal
  | literal value => some value
  | _ => none

end Kind

/-- A lexeme of a text with its kind and its place. -/
structure Token where
  /-- What the token is. -/
  kind : Kind
  /-- The characters of the text that it stands for. -/
  lexeme : String
  /-- The place of these characters. -/
  span : Span
deriving DecidableEq

namespace Token

/-- The line on which the lexeme begins. -/
def line (t : Token) : Nat := t.span.start.line

/-- The value of a literal token. -/
def literal? (t : Token) : Option Literal := t.kind.literal?

/-- Whether this is the token at the end of every text. -/
def isEnd (t : Token) : Bool := t.kind == .endOfInput

/-- Equality with literals compared by value. -/
def equal (a b : Token) : Bool :=
  a.kind.equal b.kind && a.lexeme == b.lexeme && a.span == b.span

/-- The line of a token dump: name, lexeme and the text of the literal, `null` if there is none. -/
def canonical (t : Token) : String :=
  t.kind.name ++ " " ++ t.lexeme ++ " " ++
    match t.literal? with
    | some value => value.text
    | none => "null"

/-- Name, quoted lexeme and span in angle brackets. -/
protected def toString (t : Token) : String :=
  "<" ++ t.kind.name ++ " " ++ DebugNotation.quoted t.lexeme ++ " @ " ++ toString t.span ++ ">"

instance : ToString Token := ⟨Token.toString⟩

/-- The debug text of a token. -/
def debugText (t : Token) : String :=
  DebugNotation.record "Token"
    [("token_type", t.kind.debugText),
     ("lexeme", DebugNotation.quoted t.lexeme),
     ("span", t.span.debugText)]

end Token

end LoxLex
