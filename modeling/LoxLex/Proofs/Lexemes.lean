import LoxLex.Binary64.Reading
import LoxLex.Token
import Mathlib.Data.List.TakeWhile
import Mathlib.Tactic.Lemma

set_option relaxedAutoImplicit false
set_option autoImplicit false

/-!
# The lexemes of the language

The texts that are tokens, each with its kind, and the comments. They are described by their form
alone; nothing here says how they are found in a longer text.

## Main definitions

* `LoxLex.IsDigits`, `LoxLex.IsNumber`, `LoxLex.IsWord` — the forms of numbers and words.
* `LoxLex.IsLexeme` — the texts that are tokens of a kind.
* `LoxLex.IsComment` — two slashes and what is behind them on the line.
* `LoxLex.CharClass`, `LoxLex.classOf` — the classes of first characters, no two of which overlap.

## Main results

* `LoxLex.IsLexeme.front` — the first character of a lexeme tells what sort of lexeme it is.
* `LoxLex.IsLexeme.kind_unique` — a text is a lexeme of one kind only.
* `LoxLex.IsLexeme.isPlain` — strings apart, no lexeme has a blank or a quote in it.
-/

namespace LoxLex

/-! ## Character classes as ranges of code points -/

/-- Two characters are the same if their code points are. -/
lemma char_eq_iff (a b : Char) : a = b ↔ a.toNat = b.toNat :=
  ⟨fun h => h ▸ rfl, fun h => Char.toNat_inj.1 h⟩

/-- Characters are ordered by their code points. -/
private lemma char_le_iff (a b : Char) : a ≤ b ↔ a.toNat ≤ b.toNat := Iff.rfl

/-- The code point of the quote. -/
lemma eq_quote_iff (ch : Char) : ch = '\x22' ↔ ch.toNat = 34 := char_eq_iff ch '\x22'

/-- The code points of blanks. -/
lemma isBlank_iff (ch : Char) :
    isBlank ch = true ↔ ch.toNat = 32 ∨ ch.toNat = 9 ∨ ch.toNat = 13 ∨ ch.toNat = 10 := by
  simp [isBlank, char_eq_iff, or_assoc]

/-- The code points of digits. -/
lemma isDigit_iff (ch : Char) : isDigit ch = true ↔ 48 ≤ ch.toNat ∧ ch.toNat ≤ 57 := by
  simp [isDigit, char_le_iff]

/-- The code points of letters and the underscore. -/
lemma isWordStart_iff (ch : Char) :
    isWordStart ch = true ↔
      97 ≤ ch.toNat ∧ ch.toNat ≤ 122 ∨ 65 ≤ ch.toNat ∧ ch.toNat ≤ 90 ∨ ch.toNat = 95 := by
  simp [isWordStart, char_le_iff, char_eq_iff, or_assoc]

/-! ## First characters -/

/-- What a character can be the first of. -/
inductive CharClass where
  | blank
  | quote
  | digit
  | letter
  /-- An operator or, for the slash, a comment. -/
  | mark
  /-- Nothing at all. -/
  | stray
deriving DecidableEq

/-- The class of a character. -/
def classOf (ch : Char) : CharClass :=
  if isBlank ch then .blank
  else if ch = '\x22' then .quote
  else if isDigit ch then .digit
  else if isWordStart ch then .letter
  else if (Operator.ofChar? ch).isSome then .mark
  else .stray

/-- Blanks are a class of their own. -/
lemma classOf_of_isBlank {ch : Char} (h : isBlank ch = true) : classOf ch = .blank := by
  simp [classOf, h]

/-- Only the quote is of the class of quotes. -/
@[simp] lemma classOf_quote : classOf '\x22' = .quote := by decide

/-- Digits are neither blanks nor quotes. -/
lemma classOf_of_isDigit {ch : Char} (h : isDigit ch = true) : classOf ch = .digit := by
  have code := (isDigit_iff ch).1 h
  have blank : ¬ isBlank ch = true := by rw [isBlank_iff]; omega
  have quote : ¬ ch = '\x22' := by rw [eq_quote_iff]; omega
  simp [classOf, blank, quote, h]

/-- Letters are neither blanks nor quotes nor digits. -/
lemma classOf_of_isWordStart {ch : Char} (h : isWordStart ch = true) : classOf ch = .letter := by
  have code := (isWordStart_iff ch).1 h
  have blank : ¬ isBlank ch = true := by rw [isBlank_iff]; omega
  have quote : ¬ ch = '\x22' := by rw [eq_quote_iff]; omega
  have digit : ¬ isDigit ch = true := by rw [isDigit_iff]; omega
  simp [classOf, blank, quote, digit, h]

/-- Operators begin with characters of no other use. -/
lemma classOf_of_spelling {op : Operator} {ch : Char} {text : List Char}
    (h : op.spelling = ch :: text) : classOf ch = .mark := by
  have marks : ∀ op ∈ Operator.all, classOf (op.spelling.headD ' ') = .mark := by decide
  simpa [h] using marks op op.mem_all

/-- A character that is the first of nothing is no operator. -/
lemma ofChar?_of_stray {ch : Char} (h : classOf ch = .stray) : Operator.ofChar? ch = none := by
  cases hop : Operator.ofChar? ch with
  | none => rfl
  | some op =>
    have mark := classOf_of_spelling ((Operator.ofChar?_eq_some_iff ch op).1 hop)
    rw [mark] at h
    cases h

/-! ## Numbers and words -/

/-- A text of the form `[0-9]+`. -/
def IsDigits (text : List Char) : Prop := text ≠ [] ∧ ∀ ch ∈ text, isDigit ch = true

/-- A text of the form `[0-9]+(\.[0-9]+)?`. -/
def IsNumber (text : List Char) : Prop :=
  IsDigits text ∨
    ∃ whole fraction, IsDigits whole ∧ IsDigits fraction ∧ text = whole ++ '.' :: fraction

/-- A text of the form `[A-Za-z_][A-Za-z0-9_]*`. -/
def IsWord (text : List Char) : Prop :=
  ∃ first others, text = first :: others ∧ isWordStart first = true ∧
    ∀ ch ∈ others, isWordPart ch = true

/-- A point is no digit. -/
lemma point_not_mem_of_digits {text : List Char} (h : ∀ ch ∈ text, isDigit ch = true) :
    '.' ∉ text :=
  fun hp => absurd (h '.' hp) (by decide)

/-- Digits begin with a digit. -/
lemma IsDigits.front {text : List Char} (h : IsDigits text) :
    ∃ ch others, text = ch :: others ∧ isDigit ch = true := by
  obtain ⟨ch, others, rfl⟩ := List.exists_cons_of_ne_nil h.1
  exact ⟨ch, others, rfl, h.2 ch List.mem_cons_self⟩

/-- Numbers begin with a digit. -/
lemma IsNumber.front {text : List Char} (h : IsNumber text) :
    ∃ ch others, text = ch :: others ∧ isDigit ch = true := by
  rcases h with h | ⟨whole, fraction, h, -, rfl⟩
  · exact h.front
  · obtain ⟨ch, others, rfl, hch⟩ := h.front
    exact ⟨ch, others ++ '.' :: fraction, rfl, hch⟩

/-- No word is empty. -/
lemma IsWord.ne_nil {text : List Char} (h : IsWord text) : text ≠ [] := by
  obtain ⟨first, others, rfl, -⟩ := h
  exact List.cons_ne_nil first others

/-- What continues a word within a longer word is part of a word. -/
lemma IsWord.extension {text more : List Char} {next : Char} (h : IsWord (text ++ next :: more))
    (hne : text ≠ []) : isWordPart next = true := by
  obtain ⟨first, others, heq, -, hothers⟩ := h
  obtain ⟨ch, text, rfl⟩ := List.exists_cons_of_ne_nil hne
  obtain ⟨-, rfl⟩ : ch = first ∧ text ++ next :: more = others := by simpa using heq
  exact hothers next (by simp)

/-- The value of digits with a point is that of the two runs of digits. -/
lemma ofText?_of_point {whole fraction : List Char} (hwhole : IsDigits whole)
    (hfraction : IsDigits fraction) :
    Binary64.ofText? (whole ++ '.' :: fraction) = some (Binary64.ofDigits whole fraction) := by
  have run : (whole ++ '.' :: fraction).takeWhile isDigit = whole := by
    rw [List.takeWhile_append_of_pos hwhole.2]
    simp [show isDigit '.' = false by decide]
  have rest : (whole ++ '.' :: fraction).dropWhile isDigit = '.' :: fraction := by
    rw [List.dropWhile_append_of_pos hwhole.2]
    simp [show isDigit '.' = false by decide]
  simp only [Binary64.ofText?, run, rest]
  simpa [hwhole.1, hfraction.1] using hfraction.2

/-- Every number has a value. -/
lemma IsNumber.exists_value {text : List Char} (h : IsNumber text) :
    ∃ value, Binary64.ofText? text = some value := by
  rcases h with ⟨hne, hall⟩ | ⟨whole, fraction, hwhole, hfraction, rfl⟩
  · have run : text.takeWhile isDigit = text := List.takeWhile_eq_self_iff.2 hall
    have rest : text.dropWhile isDigit = [] := List.dropWhile_eq_nil_iff.2 hall
    exact ⟨Binary64.ofDigits text [], by simp [Binary64.ofText?, run, rest, hne]⟩
  · exact ⟨_, ofText?_of_point hwhole hfraction⟩

/-- What continues a number within a longer number is a digit, or the one point with a digit
behind it.

**Proof sketch.** If the longer number is all digits, so is what is added. If it has a point, the
shorter number ends before the point, at it, or behind it; the added text begins with a digit,
with the point, or again with a digit. -/
lemma IsNumber.extension {text more : List Char} {next : Char}
    (h : IsNumber (text ++ next :: more)) :
    isDigit next = true ∨
      '.' ∉ text ∧ next = '.' ∧ ∃ digit others, more = digit :: others ∧ isDigit digit = true := by
  rcases h with ⟨-, hall⟩ | ⟨whole, fraction, hwhole, hfraction, heq⟩
  · exact .inl (hall next (by simp))
  · rcases List.append_eq_append_iff.1 heq with ⟨a, rfl, ha⟩ | ⟨a, rfl, ha⟩
    · cases a with
      | nil =>
        obtain ⟨rfl, rfl⟩ : next = '.' ∧ more = fraction := by simpa using ha
        exact .inr ⟨point_not_mem_of_digits (by simpa using hwhole.2), rfl, hfraction.front⟩
      | cons ch a =>
        obtain rfl : next = ch := by simp at ha; exact ha.1
        exact .inl (hwhole.2 next (by simp))
    · cases a with
      | nil =>
        obtain ⟨rfl, rfl⟩ : next = '.' ∧ more = fraction := by simpa [eq_comm] using ha
        exact .inr ⟨point_not_mem_of_digits (by simpa using hwhole.2), rfl, hfraction.front⟩
      | cons ch a =>
        obtain ⟨-, rfl⟩ : '.' = ch ∧ fraction = a ++ next :: more := by simpa using ha
        exact .inl (hfraction.2 next (by simp))

/-! ## Lexemes and comments -/

/-- The texts that are tokens of a kind: the fixed spellings; a string between quotes, with its
body as the value; a number with its value; a word, which is a keyword if it is spelled like one
and else an identifier. -/
inductive IsLexeme : Kind → List Char → Prop where
  | operator (op : Operator) : IsLexeme (.operator op) op.spelling
  | string {body : List Char} (h : '\x22' ∉ body) :
    IsLexeme (.literal (.string (String.ofList body))) ('\x22' :: (body ++ ['\x22']))
  | number {text : List Char} {value : Binary64} (h : IsNumber text)
    (hvalue : Binary64.ofText? text = some value) : IsLexeme (.literal (.number value)) text
  | keyword {text : List Char} {word : Keyword} (h : IsWord text)
    (hword : word.spelling = String.ofList text) : IsLexeme (.keyword word) text
  | identifier {text : List Char} (h : IsWord text)
    (hword : ∀ word : Keyword, word.spelling ≠ String.ofList text) : IsLexeme .identifier text

/-- A text of the form `//[^\n]*`. -/
def IsComment (text : List Char) : Prop := ∃ body, text = '/' :: '/' :: body ∧ '\n' ∉ body

/-- The class of the first character of the lexemes of a kind. -/
def Kind.frontClass : Kind → CharClass
  | .operator _ => .mark
  | .literal (.string _) => .quote
  | .literal (.number _) => .digit
  | .identifier | .keyword _ => .letter
  | .endOfInput => .stray

/-- The first character of a lexeme tells what sort of lexeme it is. -/
lemma IsLexeme.front {kind : Kind} {text : List Char} (h : IsLexeme kind text) :
    ∃ ch others, text = ch :: others ∧ classOf ch = kind.frontClass := by
  cases h with
  | operator op =>
    obtain ⟨ch, others, hop⟩ : ∃ ch others, op.spelling = ch :: others := by
      cases op <;> exact ⟨_, _, rfl⟩
    exact ⟨ch, others, hop, classOf_of_spelling hop⟩
  | string h => exact ⟨_, _, rfl, classOf_quote⟩
  | number h hvalue =>
    obtain ⟨ch, others, rfl, hch⟩ := h.front
    exact ⟨ch, others, rfl, classOf_of_isDigit hch⟩
  | keyword h hword | identifier h hword =>
    obtain ⟨ch, others, rfl, hch, -⟩ := h
    exact ⟨ch, others, rfl, classOf_of_isWordStart hch⟩

/-- Two kinds of one lexeme have the same class of first characters. -/
private lemma IsLexeme.frontClass_eq {j k : Kind} {text : List Char} (hj : IsLexeme j text)
    (hk : IsLexeme k text) : j.frontClass = k.frontClass := by
  obtain ⟨ch, others, rfl, hch⟩ := hj.front
  obtain ⟨ch', others', heq, hch'⟩ := hk.front
  obtain ⟨rfl, -⟩ : ch = ch' ∧ others = others' := by simpa using heq
  rw [← hch, ← hch']

/-- A text is a lexeme of one kind only.

**Proof sketch.** The first character tells the sort. Within a sort the kind is a function of the
text: spellings differ from operator to operator and from keyword to keyword, and an identifier is
spelled like no keyword. -/
lemma IsLexeme.kind_unique {j k : Kind} {text : List Char} (hj : IsLexeme j text)
    (hk : IsLexeme k text) : j = k := by
  have class_eq := hj.frontClass_eq hk
  cases hj with
  | operator op =>
    generalize htext : op.spelling = text at hk
    cases hk with
    | operator op' => rw [Operator.spelling_injective htext]
    | _ => cases class_eq
  | @string body h =>
    generalize htext : '\x22' :: (body ++ ['\x22']) = text at hk
    cases hk with
    | string h' => rw [List.append_cancel_right (List.cons.inj htext).2]
    | _ => cases class_eq
  | number h hvalue =>
    cases hk with
    | number h' hvalue' => rw [Option.some.inj (hvalue.symm.trans hvalue')]
    | _ => cases class_eq
  | keyword h hword =>
    cases hk with
    | keyword h' hword' => rw [Keyword.spelling_injective (hword.trans hword'.symm)]
    | identifier h' hword' => exact absurd hword (hword' _)
    | _ => cases class_eq
  | identifier h hword =>
    cases hk with
    | keyword h' hword' => exact absurd hword' (hword _)
    | identifier h' hword' => rfl
    | _ => cases class_eq

/-! ## Plain characters -/

/-- A character that means the same wherever it stands: no blank, no quote and no slash. -/
def IsPlain (ch : Char) : Prop := isBlank ch = false ∧ ch ≠ '\x22' ∧ ch ≠ '/'

/-- Digits, letters and characters of no use are plain. -/
lemma isPlain_of_classOf {ch : Char}
    (h : classOf ch = .digit ∨ classOf ch = .letter ∨ classOf ch = .stray) : IsPlain ch := by
  refine ⟨?_, ?_, ?_⟩
  · cases hblank : isBlank ch with
    | false => rfl
    | true => simp [classOf_of_isBlank hblank] at h
  · rintro rfl
    simp at h
  · rintro rfl
    simp [show classOf '/' = .mark by decide] at h

/-- The characters of words are plain. -/
lemma isPlain_of_isWordPart {ch : Char} (h : isWordPart ch = true) : IsPlain ch := by
  rw [isWordPart, Bool.or_eq_true] at h
  rcases h with h | h
  · exact isPlain_of_classOf (.inr (.inl (classOf_of_isWordStart h)))
  · exact isPlain_of_classOf (.inl (classOf_of_isDigit h))

/-- The characters of numbers are plain. -/
lemma IsNumber.isPlain {text : List Char} (h : IsNumber text) : ∀ ch ∈ text, IsPlain ch := by
  have digit : ∀ ch, isDigit ch = true → IsPlain ch :=
    fun ch hch => isPlain_of_classOf (.inl (classOf_of_isDigit hch))
  rcases h with ⟨-, hall⟩ | ⟨whole, fraction, hwhole, hfraction, rfl⟩
  · exact fun ch hch => digit ch (hall ch hch)
  · intro ch hch
    rcases List.mem_append.1 hch with hch | hch
    · exact digit ch (hwhole.2 ch hch)
    · rcases List.mem_cons.1 hch with rfl | hch
      · exact ⟨by decide, by decide, by decide⟩
      · exact digit ch (hfraction.2 ch hch)

/-- The characters of words are plain. -/
lemma IsWord.isPlain {text : List Char} (h : IsWord text) : ∀ ch ∈ text, IsPlain ch := by
  obtain ⟨first, others, rfl, hfirst, hothers⟩ := h
  intro ch hch
  rcases List.mem_cons.1 hch with rfl | hch
  · exact isPlain_of_classOf (.inr (.inl (classOf_of_isWordStart hfirst)))
  · exact isPlain_of_isWordPart (hothers ch hch)

/-- Strings and the slash apart, lexemes consist of plain characters. -/
lemma IsLexeme.isPlain {kind : Kind} {text : List Char} (h : IsLexeme kind text)
    (hquote : kind.frontClass ≠ .quote) (hslash : kind ≠ .operator .slash) :
    ∀ ch ∈ text, IsPlain ch := by
  cases h with
  | operator op =>
    have marks : ∀ op ∈ Operator.all, op ≠ .slash →
        op.spelling.all (fun ch => !isBlank ch && ch != '\x22' && ch != '/') = true := by decide
    have hplain := marks op op.mem_all fun hop => hslash (by rw [hop])
    simpa [IsPlain, and_assoc] using hplain
  | string => exact absurd rfl hquote
  | number h => exact h.isPlain
  | keyword h | identifier h => exact h.isPlain

end LoxLex
