set_option relaxedAutoImplicit false
set_option autoImplicit false

/-!
# Keywords

The seventeen reserved words. A word of a text is a keyword only if it is spelled exactly like
one; every other word is an identifier.

## Main definitions

* `LoxLex.Keyword` — the reserved words, with `Keyword.all` and the spelling `Keyword.spelling`.
* `LoxLex.Keyword.ofSpelling?` — the keyword of a spelling.

## Main results

* `LoxLex.Keyword.mem_all` — every keyword is listed.
* `LoxLex.Keyword.ofSpelling?_eq_some_iff` — looking up a spelling inverts `Keyword.spelling`.
-/

namespace LoxLex

/-- A reserved word. -/
inductive Keyword where
  -- the constants
  | nilKw | falseKw | trueKw
  -- the logical operators
  | andKw | orKw
  -- control flow
  | ifKw | elseKw | forKw | whileKw | breakKw | returnKw
  -- declarations
  | classKw | funKw | varKw
  -- the others
  | printKw | superKw | thisKw
deriving DecidableEq, Repr

namespace Keyword

/-- Every keyword once: constants, logical operators, control flow, declarations, others. -/
def all : List Keyword :=
  [ nilKw, falseKw, trueKw, andKw, orKw, ifKw, elseKw, forKw, whileKw, breakKw, returnKw, classKw,
    funKw, varKw, printKw, superKw, thisKw ]

/-- The spelling of a keyword. -/
def spelling : Keyword → String
  | nilKw => "nil"
  | falseKw => "false"
  | trueKw => "true"
  | andKw => "and"
  | orKw => "or"
  | ifKw => "if"
  | elseKw => "else"
  | forKw => "for"
  | whileKw => "while"
  | breakKw => "break"
  | returnKw => "return"
  | classKw => "class"
  | funKw => "fun"
  | varKw => "var"
  | printKw => "print"
  | superKw => "super"
  | thisKw => "this"

/-- The name of a keyword in token dumps: its spelling in capitals. -/
def name (k : Keyword) : String := String.ofList (k.spelling.toList.map Char.toUpper)

/-- The debug text of a keyword: its spelling with a capital at the start. -/
def debugText (k : Keyword) : String :=
  match k.spelling.toList with
  | [] => ""
  | first :: others => String.ofList (first.toUpper :: others)

/-- The keyword that is spelled exactly so, if there is one. -/
def ofSpelling? (word : String) : Option Keyword := all.find? (fun k => k.spelling == word)

/-- Every keyword is listed. -/
theorem mem_all (k : Keyword) : k ∈ all := by cases k <;> decide

/-- No two keywords share a spelling. -/
theorem spelling_injective {j k : Keyword} (h : j.spelling = k.spelling) : j = k := by
  have distinct : ∀ j ∈ all, ∀ k ∈ all, j.spelling = k.spelling → j = k := by decide
  exact distinct j (mem_all j) k (mem_all k) h

/-- Looking up a spelling inverts `Keyword.spelling`. -/
theorem ofSpelling?_eq_some_iff (word : String) (k : Keyword) :
    ofSpelling? word = some k ↔ k.spelling = word := by
  constructor
  · intro h
    simpa using List.find?_some h
  · rintro rfl
    cases hf : ofSpelling? k.spelling with
    | none => simpa using List.find?_eq_none.1 hf k (mem_all k)
    | some j => exact congrArg some (spelling_injective (by simpa using List.find?_some hf))

end Keyword

end LoxLex
