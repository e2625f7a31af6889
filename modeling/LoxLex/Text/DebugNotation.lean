import LoxLex.Text.Escape

set_option relaxedAutoImplicit false
set_option autoImplicit false

/-!
# Debug notation

A value written out in full on one line: a record by its name and its fields in braces, a wrapped
value by its name and the value in parentheses, a list in brackets, a text or a character in its
quotes with escapes.

## Main definitions

* `LoxLex.DebugNotation.record`, `wrap`, `list`, `quoted`, `quotedChar`.
-/

namespace LoxLex.DebugNotation

/-- A record: its name, then its fields with their names, in braces. -/
def record (name : String) (fields : List (String × String)) : String :=
  name ++ " \x7b " ++ ", ".intercalate (fields.map fun f => f.1 ++ ": " ++ f.2) ++ " \x7d"

/-- A name with one value in parentheses. -/
def wrap (name : String) (value : String) : String :=
  name ++ "(" ++ value ++ ")"

/-- The members in brackets, with commas between. -/
def list (members : List String) : String :=
  "[" ++ ", ".intercalate members ++ "]"

/-- A text in double quotes. -/
def quoted (text : String) : String :=
  "\"" ++ String.ofList (escape .insideDouble text.toList) ++ "\""

/-- A character in apostrophes. -/
def quotedChar (c : Char) : String :=
  "'" ++ String.ofList (escapeChar .insideSingle c) ++ "'"

end LoxLex.DebugNotation
