import LoxLex.Proofs.FileRuns
import LoxLex.Proofs.LineEndings
import LoxLex.Proofs.NumberTexts
import LoxLex.Proofs.ScanTrace
import Mathlib.Algebra.BigOperators.Ring.List

set_option relaxedAutoImplicit false
set_option autoImplicit false

/-!
# The lines of what is printed

A source text may have any character anywhere, and four forms of output show parts of it: messages
escape the character that they report, the texts of tokens escape their lexemes, both in the log and
in the debug format, and the canonical format shows lexemes as they stand. So all of these are
single lines but for the canonical text of a string with newlines in it, where each of them is seen
twice, in the lexeme and in the value. Of a run over a file it follows what the lines on standard
error are; the source text has no part in that but through its items.

## Main definitions

* `LoxLex.newlines`, `LoxLex.IsOneLine` — how many newlines a text has, and that it has none.
* `LoxLex.Kind.bodyNewlines` — the newlines in the body of a string.
* `LoxLex.diagnosticLines` — the lines for the records that are shown and for the errors.

## Main results

* `LoxLex.LexError.isOneLine_message`, `LoxLex.Token.isOneLine_toString`,
  `LoxLex.Token.isOneLine_debugText` — texts without a newline.
* `LoxLex.Token.WellFormed.newlines_canonical` — the newlines in the canonical text of a token.
* `LoxLex.textLines_join` — lines that are put together are found again.
* `LoxLex.output_lines` — the lines of a run over a file.
-/

namespace LoxLex

/-! ## Texts of one line -/

/-- The number of newlines in a text. -/
def newlines (text : String) : ℕ := text.toList.count '\n'

/-- A text without a newline. -/
def IsOneLine (text : String) : Prop := '\n' ∉ text.toList

instance (text : String) : Decidable (IsOneLine text) :=
  inferInstanceAs (Decidable ('\n' ∉ text.toList))

/-- No newline is no newline. -/
lemma newlines_eq_zero_iff {text : String} : newlines text = 0 ↔ IsOneLine text :=
  List.count_eq_zero

/-- The newlines of two texts. -/
@[simp] lemma newlines_append (a b : String) : newlines (a ++ b) = newlines a + newlines b := by
  simp [newlines]

/-- The newlines of several texts. -/
lemma newlines_join (texts : List String) :
    newlines (String.join texts) = (texts.map newlines).sum := by
  induction texts with
  | nil => rfl
  | cons text texts ih => rw [String.join_cons, newlines_append, ih, List.map_cons, List.sum_cons]

/-- Two texts of one line are one line. -/
@[simp] lemma isOneLine_append {a b : String} : IsOneLine (a ++ b) ↔ IsOneLine a ∧ IsOneLine b := by
  simp [IsOneLine]

/-- Characters that make up one line. -/
@[simp] lemma isOneLine_ofList {text : List Char} :
    IsOneLine (String.ofList text) ↔ '\n' ∉ text := by
  simp [IsOneLine]

/-- Texts of one line with one between them are one line. -/
lemma isOneLine_intercalate {between : String} (hbetween : IsOneLine between) {texts : List String}
    (h : ∀ text ∈ texts, IsOneLine text) : IsOneLine (between.intercalate texts) := by
  induction texts with
  | nil =>
    rw [String.intercalate_nil]
    decide
  | cons text texts ih =>
    obtain ⟨htext, htexts⟩ := List.forall_mem_cons.1 h
    by_cases hnil : texts = []
    · rwa [hnil, String.intercalate_singleton]
    · rw [String.intercalate_cons_of_ne_nil hnil, isOneLine_append, isOneLine_append]
      exact ⟨⟨htext, hbetween⟩, ih htexts⟩

/-! ## Numbers -/

/-- Digits have no newline among them. -/
lemma IsDigits.newline_not_mem {text : List Char} (h : IsDigits text) : '\n' ∉ text :=
  fun hnewline => absurd (h.2 '\n' hnewline) (by decide)

/-- The text of a natural number is one line. -/
lemma isOneLine_nat (n : ℕ) : IsOneLine (toString n) := by
  rw [IsOneLine, Nat.toString_eq_ofList_toDigits, String.toList_ofList]
  exact (isDigits_toDigits n).newline_not_mem

/-- So is that of an integer. -/
lemma isOneLine_int (i : ℤ) : IsOneLine (toString i) := by
  rw [Int.toString_eq_repr, Int.repr_eq_if]
  split
  · exact isOneLine_nat _
  · exact isOneLine_append.2 ⟨by decide, isOneLine_nat _⟩

namespace Decimal

variable (d : Decimal)

/-- Digits with a point are part of a line. -/
lemma newline_not_mem_positional : '\n' ∉ d.positional := by
  simp [positional, d.isDigits_wholeDigits.newline_not_mem,
    d.isDigits_fractionDigits.newline_not_mem]

/-- So are digits that may have a point. -/
lemma newline_not_mem_plain : '\n' ∉ d.plain := by
  unfold plain
  split
  · exact d.isDigits_wholeDigits.newline_not_mem
  · exact d.newline_not_mem_positional

/-- So are digits with an exponent. -/
lemma newline_not_mem_scientific : '\n' ∉ d.scientific := by
  have hdigits := (isDigits_toDigits d.digits).newline_not_mem
  unfold scientific
  split
  · simp
  · next first others hsplit =>
    rw [hsplit, List.mem_cons, not_or] at hdigits
    have hexponent : '\n' ∉ (toString (d.exponent + others.length)).toList := isOneLine_int _
    have hfraction : '\n' ∉ (if others.isEmpty then [] else '.' :: others) := by
      split <;> simp [hdigits.2]
    simp only [List.cons_append, List.mem_cons, List.mem_append, not_or]
    exact ⟨hdigits.1, hfraction, by decide, hexponent⟩

end Decimal

namespace Binary64

variable (x : Binary64)

/-- The text of a number is part of a line if those of decimals are. -/
lemma newline_not_mem_textWith {write : Decimal → List Char} (h : ∀ d, '\n' ∉ write d) :
    '\n' ∉ x.textWith write := by
  have hsigned : ∀ text, '\n' ∉ text → '\n' ∉ x.signed text := by
    intro text htext
    unfold signed
    split <;> simp [htext]
  unfold textWith
  split
  · decide
  · split
    · exact hsigned _ (by decide)
    · exact hsigned _ (h _)

/-- The debug text of a number is part of a line. -/
lemma newline_not_mem_debugText : '\n' ∉ x.debugText := by
  refine x.newline_not_mem_textWith fun d => ?_
  split
  · exact d.newline_not_mem_positional
  · exact d.newline_not_mem_scientific

end Binary64

/-- The text of a number literal is one line. -/
lemma Literal.isOneLine_text_number (x : Binary64) : IsOneLine (Literal.number x).text := by
  have htext : '\n' ∉ x.text := x.newline_not_mem_textWith fun d => d.newline_not_mem_plain
  rw [Literal.text, isOneLine_ofList, List.mem_append, not_or]
  exact ⟨htext, by split <;> decide⟩

/-! ## Escapes -/

/-- Digits in any base are part of a line. -/
private lemma newline_not_mem_toDigitsCore (base fuel n : ℕ) {digits : List Char}
    (h : '\n' ∉ digits) : '\n' ∉ Nat.toDigitsCore base fuel n digits := by
  induction fuel generalizing n digits with
  | zero => exact h
  | succ fuel ih =>
    have hmore : '\n' ∉ Nat.digitChar (n % base) :: digits :=
      List.not_mem_cons_of_ne_of_not_mem (Nat.digitChar_ne '\n' (by decide)).symm h
    rw [Nat.toDigitsCore]
    split
    · exact hmore
    · exact ih _ hmore

/-- The escaped form of a character is part of a line, also that of the newline. -/
lemma newline_not_mem_escapeChar (q : Quoting) (ch : Char) : '\n' ∉ escapeChar q ch := by
  have hcode : '\n' ∉ escapeCodePoint ch := by
    have hdigits : '\n' ∉ Nat.toDigits 16 ch.toNat := newline_not_mem_toDigitsCore _ _ _ (by simp)
    simp [escapeCodePoint, hdigits]
  by_cases hch : ch = '\n'
  · rw [hch, show escapeChar q '\n' = ['\\', 'n'] from rfl]
    decide
  · unfold escapeChar
    split_ifs <;> simp [Ne.symm hch, hcode]

/-- So is the escaped form of a text. -/
lemma newline_not_mem_escape (q : Quoting) (text : List Char) : '\n' ∉ escape q text := by
  intro hnewline
  obtain ⟨ch, -, hch⟩ := List.mem_flatMap.1 hnewline
  exact newline_not_mem_escapeChar q ch hch

namespace DebugNotation

/-- A text in quotes is one line, whatever text it is. -/
lemma isOneLine_quoted (text : String) : IsOneLine (quoted text) := by
  simp only [quoted, isOneLine_append, isOneLine_ofList]
  exact ⟨⟨by decide, newline_not_mem_escape _ _⟩, by decide⟩

/-- A value of one line is one line within parentheses. -/
lemma isOneLine_wrap {name value : String} (hname : IsOneLine name) (hvalue : IsOneLine value) :
    IsOneLine (wrap name value) := by
  simp only [wrap, isOneLine_append]
  exact ⟨⟨⟨hname, by decide⟩, hvalue⟩, by decide⟩

/-- A record with fields of one line is one line. -/
lemma isOneLine_record {name : String} {fields : List (String × String)} (hname : IsOneLine name)
    (h : ∀ f ∈ fields, IsOneLine f.1 ∧ IsOneLine f.2) : IsOneLine (record name fields) := by
  have hfields : IsOneLine (", ".intercalate (fields.map fun f => f.1 ++ ": " ++ f.2)) := by
    refine isOneLine_intercalate (by decide) fun text htext => ?_
    obtain ⟨f, hf, rfl⟩ := List.mem_map.1 htext
    simp only [isOneLine_append]
    exact ⟨⟨(h f hf).1, by decide⟩, (h f hf).2⟩
  simp only [record, isOneLine_append]
  exact ⟨⟨⟨hname, by decide⟩, hfields⟩, by decide⟩

end DebugNotation

/-! ## Messages and tokens -/

/-- The text of a location is one line. -/
lemma Location.isOneLine_toString (l : Location) : IsOneLine (toString l) :=
  isOneLine_append.2 ⟨isOneLine_append.2 ⟨isOneLine_nat _, by decide⟩, isOneLine_nat _⟩

/-- So is its debug text. -/
lemma Location.isOneLine_debugText (l : Location) : IsOneLine l.debugText := by
  refine DebugNotation.isOneLine_record (by decide) ?_
  simp only [List.forall_mem_cons, List.not_mem_nil, false_imp_iff, implies_true, and_true]
  exact ⟨⟨by decide, isOneLine_nat _⟩, by decide, isOneLine_nat _⟩

/-- The text of a span is one line. -/
lemma Span.isOneLine_toString (s : Span) : IsOneLine (toString s) := by
  have hstart := s.start.isOneLine_toString
  have hstop := s.stop.isOneLine_toString
  show IsOneLine (if s.start = s.stop then toString s.start
    else toString s.start ++ "-" ++ toString s.stop)
  split
  · exact hstart
  · exact isOneLine_append.2 ⟨isOneLine_append.2 ⟨hstart, by decide⟩, hstop⟩

/-- So is its debug text. -/
lemma Span.isOneLine_debugText (s : Span) : IsOneLine s.debugText := by
  refine DebugNotation.isOneLine_record (by decide) ?_
  simp only [List.forall_mem_cons, List.not_mem_nil, false_imp_iff, implies_true, and_true]
  exact ⟨⟨by decide, s.start.isOneLine_debugText⟩, by decide, s.stop.isOneLine_debugText⟩

/-- The message of an error is one line, whatever the character that it reports. -/
lemma LexError.isOneLine_message (e : LexError) : IsOneLine e.message := by
  have hdescription : IsOneLine e.description := by
    cases e with
    | unexpectedCharacter ch span =>
      have hch : IsOneLine (String.ofList (escapeChar .anywhere ch)) :=
        isOneLine_ofList.2 (newline_not_mem_escapeChar .anywhere ch)
      exact isOneLine_append.2 ⟨isOneLine_append.2 ⟨by decide, hch⟩, by decide⟩
    | unterminatedString span =>
      show IsOneLine "unterminated string"
      decide
  simp only [message, isOneLine_append]
  exact ⟨⟨⟨by decide, isOneLine_nat _⟩, by decide⟩, hdescription⟩

/-- The name of a kind is one line. -/
lemma Kind.isOneLine_name (kind : Kind) : IsOneLine kind.name := by
  cases kind with
  | operator op =>
    have names : ∀ op ∈ Operator.all, IsOneLine op.name := by decide
    exact names op op.mem_all
  | keyword word =>
    have names : ∀ word ∈ Keyword.all, IsOneLine word.name := by decide
    exact names word word.mem_all
  | literal value =>
    have names : IsOneLine "STRING" ∧ IsOneLine "NUMBER" := by decide
    cases value with
    | string body => exact names.1
    | number x => exact names.2
  | identifier | endOfInput => decide

/-- The debug text of a kind is one line, whatever the body of a string. -/
lemma Kind.isOneLine_debugText (kind : Kind) : IsOneLine kind.debugText := by
  cases kind with
  | operator op =>
    have names : ∀ op ∈ Operator.all, IsOneLine op.debugText := by decide
    exact names op op.mem_all
  | keyword word =>
    have names : ∀ word ∈ Keyword.all, IsOneLine word.debugText := by decide
    exact DebugNotation.isOneLine_wrap (by decide) (names word word.mem_all)
  | literal value =>
    refine DebugNotation.isOneLine_wrap (by decide) ?_
    cases value with
    | string body =>
      exact DebugNotation.isOneLine_wrap (by decide) (DebugNotation.isOneLine_quoted body)
    | number x =>
      exact DebugNotation.isOneLine_wrap (by decide)
        (isOneLine_ofList.2 x.newline_not_mem_debugText)
  | identifier | endOfInput => decide

/-- The newlines in the body of a string. Nothing else has newlines. -/
def Kind.bodyNewlines : Kind → ℕ
  | literal (.string body) => newlines body
  | _ => 0

namespace Token

/-- The text of a token in the log is one line. -/
lemma isOneLine_toString (t : Token) : IsOneLine (toString t) := by
  show IsOneLine ("<" ++ t.kind.name ++ " " ++ DebugNotation.quoted t.lexeme ++ " @ " ++
    toString t.span ++ ">")
  simp only [isOneLine_append]
  exact ⟨⟨⟨⟨⟨⟨by decide, t.kind.isOneLine_name⟩, by decide⟩,
    DebugNotation.isOneLine_quoted _⟩, by decide⟩, t.span.isOneLine_toString⟩, by decide⟩

/-- So is its debug text. -/
lemma isOneLine_debugText (t : Token) : IsOneLine t.debugText := by
  refine DebugNotation.isOneLine_record (by decide) ?_
  simp only [List.forall_mem_cons, List.not_mem_nil, false_imp_iff, implies_true, and_true]
  exact ⟨⟨by decide, t.kind.isOneLine_debugText⟩, ⟨by decide, DebugNotation.isOneLine_quoted _⟩,
    by decide, t.span.isOneLine_debugText⟩

/-- The newlines in the lexeme of a well-formed token are those in the body of a string. -/
lemma WellFormed.newlines_lexeme {t : Token} (h : t.WellFormed) :
    newlines t.lexeme = t.kind.bodyNewlines := by
  obtain ⟨kind, lexeme, span⟩ := t
  rcases h with h | ⟨rfl, rfl⟩
  · by_cases hquote : kind.frontClass = .quote
    · dsimp only at h ⊢
      generalize hlexeme : lexeme.toList = text at h
      cases h with
      | string => simp [newlines, Kind.bodyNewlines, hlexeme]
      | _ => cases hquote
    · have hbody : kind.bodyNewlines = 0 := by
        cases kind with
        | literal value =>
          cases value with
          | string body => exact absurd rfl hquote
          | number x => rfl
        | _ => rfl
      rw [hbody, newlines_eq_zero_iff]
      exact h.newline_not_mem hquote
  · rfl

/-- The newlines in the body of a string are seen twice in its canonical text, and the canonical
texts of other tokens are one line. -/
lemma WellFormed.newlines_canonical {t : Token} (h : t.WellFormed) :
    newlines t.canonical = 2 * t.kind.bodyNewlines := by
  have hname := newlines_eq_zero_iff.2 t.kind.isOneLine_name
  have hspace : newlines " " = 0 := by decide
  have hnull : newlines "null" = 0 := by decide
  rw [canonical, newlines_append, newlines_append, newlines_append, newlines_append, hname, hspace,
    h.newlines_lexeme, literal?]
  cases t.kind with
  | literal value =>
    cases value with
    | string body =>
      simp only [Kind.literal?, Kind.bodyNewlines, Literal.text]
      omega
    | number x =>
      have hvalue := newlines_eq_zero_iff.2 (Literal.isOneLine_text_number x)
      simp only [Kind.literal?, Kind.bodyNewlines, hvalue]
  | _ => simp only [Kind.literal?, Kind.bodyNewlines, hnull]

end Token

/-! ## The log -/

/-- The line of a record is one line if its message is. -/
lemma LogRecord.isOneLine_line {r : LogRecord} (h : IsOneLine r.message) : IsOneLine r.line := by
  have hhead : IsOneLine ("[" ++ r.severity.name ++
      String.ofList (List.replicate (5 - r.severity.name.length) ' ') ++ " " ++ target ++
        "] ") := by
    cases r.severity <;> decide
  exact isOneLine_append.2 ⟨hhead, h⟩

/-- The messages of a scan are one line each, whatever its text. -/
lemma isOneLine_of_mem_records {source : String} {r : LogRecord}
    (h : r ∈ (scanLogged source).records) : IsOneLine r.message := by
  rw [scanLogged_records] at h
  rcases List.mem_append.1 h with hitem | hsummary
  · obtain ⟨item, -, rfl⟩ := List.mem_map.1 hitem
    cases item with
    | token t => exact t.isOneLine_toString
    | error e => exact e.isOneLine_message
  · obtain rfl := List.mem_singleton.1 hsummary
    simp only [Scan.summary, isOneLine_append]
    exact ⟨⟨⟨⟨by decide, isOneLine_nat _⟩, by decide⟩, isOneLine_nat _⟩, by decide⟩

/-! ## Lines of several kinds -/

/-- The heading of the errors of a text. -/
def errorHeading : String := "Errors when scanning:"

/-- The line of a record shows a severity behind its bracket. -/
lemma LogRecord.second_line (r : LogRecord) :
    ∃ ch, r.line.toList[1]? = some ch ∧ ch.isUpper = true := by
  obtain ⟨ch, others, hname, hch⟩ :
      ∃ ch others, r.severity.name.toList = ch :: others ∧ ch.isUpper = true := by
    cases r.severity <;> exact ⟨_, _, rfl, by decide⟩
  exact ⟨ch, by simp [line, hname], hch⟩

/-- So it is neither a message nor the heading, which are no more the same. -/
lemma LogRecord.line_ne (r : LogRecord) (e : LexError) :
    r.line ≠ e.message ∧ r.line ≠ errorHeading ∧ e.message ≠ errorHeading := by
  have hmessage : e.message.toList[1]? = some 'l' := by simp [LexError.message]
  have hheading : errorHeading.toList[1]? = some 'r' := by decide
  obtain ⟨ch, hline, hupper⟩ := r.second_line
  refine ⟨fun h => ?_, fun h => ?_, fun h => ?_⟩
  · obtain rfl : ch = 'l' := Option.some.inj (hline.symm.trans (h ▸ hmessage))
    exact absurd hupper (by decide)
  · obtain rfl : ch = 'r' := Option.some.inj (hline.symm.trans (h ▸ hheading))
    exact absurd hupper (by decide)
  · rw [h, hheading] at hmessage
    exact absurd hmessage (by decide)

/-! ## Lines that are put together -/

/-- A text of one line, with its newline, is a line. -/
lemma IsOneLine.endsLine {text : String} (h : IsOneLine text) : EndsLine (text ++ "\n") :=
  ⟨text.toList, h, String.toList_append⟩

/-- A line at the front of a text is its first line. -/
lemma cutLines_append_newline {body : List Char} (h : '\n' ∉ body) (text : List Char) :
    cutLines (body ++ '\n' :: text) = (body ++ ['\n']) :: cutLines text := by
  induction body with
  | nil => exact cutLines_newline text
  | cons ch body ih =>
    obtain ⟨hch, hbody⟩ : ¬ '\n' = ch ∧ '\n' ∉ body := by simpa using h
    rw [List.cons_append, cutLines_cons (Ne.symm hch), ih hbody]
    rfl

/-- Lines that are put together are the lines of what they make up. -/
lemma textLines_join {lines : List String} (h : ∀ line ∈ lines, EndsLine line) :
    textLines (String.join lines) = lines := by
  induction lines with
  | nil => rfl
  | cons line lines ih =>
    obtain ⟨⟨body, hbody, hline⟩, hlines⟩ := List.forall_mem_cons.1 h
    have hcut : cutLines (String.join (line :: lines)).toList =
        line.toList :: cutLines (String.join lines).toList := by
      rw [String.join_cons, String.toList_append, hline, List.append_assoc, List.singleton_append,
        cutLines_append_newline hbody]
    rw [textLines, hcut, List.map_cons, String.ofList_toList, ← textLines, ih hlines]

/-- A line has one newline. -/
lemma EndsLine.newlines_eq {line : String} (h : EndsLine line) : newlines line = 1 := by
  obtain ⟨body, hbody, hline⟩ := h
  simp [newlines, hline, List.count_eq_zero.2 hbody]

/-! ## Runs over a file -/

/-- The lines of a run over a file on standard error, without their newlines: one for each record
that is shown, and, if there are errors, a heading and one for each of them. -/
def diagnosticLines (v : Verbosity) (source : String) : List String :=
  (v.shown (scanLogged source).records).map LogRecord.line ++
    if (scan source).errors = [] then []
    else errorHeading :: (scan source).errors.map LexError.message

/-- All of them are single lines. -/
lemma isOneLine_of_mem_diagnosticLines {v : Verbosity} {source line : String}
    (h : line ∈ diagnosticLines v source) : IsOneLine line := by
  rcases List.mem_append.1 h with hlog | herrors
  · obtain ⟨r, hr, rfl⟩ := List.mem_map.1 hlog
    exact LogRecord.isOneLine_line (isOneLine_of_mem_records (List.mem_filter.1 hr).1)
  · split at herrors
    · cases herrors
    · rcases List.mem_cons.1 herrors with rfl | hmessage
      · decide
      · obtain ⟨e, -, rfl⟩ := List.mem_map.1 hmessage
        exact e.isOneLine_message

/-- How many there are. -/
lemma length_diagnosticLines (v : Verbosity) (source : String) :
    (diagnosticLines v source).length = (v.shown (scanLogged source).records).length +
      if (scan source).errors = [] then 0 else 1 + (scan source).errors.length := by
  rw [diagnosticLines, List.length_append, List.length_map]
  split
  · rfl
  · rw [List.length_cons, List.length_map, Nat.add_comm 1]

/-- A run over a file prints all it has to print, if standard output takes all its lines. -/
lemma transcript_onto_of_takes {d : Device} {format : TokenFormat} {source : String}
    (h : d.Takes (tokenLines format source)) (v : Verbosity) :
    (RunInput.transcript ⟨format, v⟩ (.file (.ok source))).onto d =
      RunInput.transcript ⟨format, v⟩ (.file (.ok source)) := by
  have hsilent : ∀ o ∈ Settings.logOutputs ⟨format, v⟩ (scanLogged source).records,
      o.writesOut = false := by
    intro o ho
    obtain ⟨r, -, rfl⟩ := List.mem_map.1 ho
    rfl
  have houtputs : Settings.tokenOutputs ⟨format, v⟩ (scanLogged source).value.tokens =
      (tokenLines format source).map .out := by
    rw [scanLogged_value, Settings.tokenOutputs, tokenLines, List.map_map]
    rfl
  have hwrite := Device.write_takes h (empty_notMem_tokenLines format source) []
  rw [List.append_nil, Device.write, List.append_nil] at hwrite
  rw [RunInput.transcript, fileTranscript, Transcript.onto]
  simp only [houtputs, Device.write_append_of_silent d "" hsilent, hwrite]

/-- Nothing, however often, is nothing. -/
private lemma join_replicate_empty (n : ℕ) : String.join (List.replicate n "") = "" := by
  induction n with
  | zero => rfl
  | succ n ih =>
    rw [List.replicate_succ, String.join_cons, ih]
    rfl

/-- What is seen of a run over a file, if standard output takes all its lines. -/
lemma outcome_of_takes {d : Device} {format : TokenFormat} {source : String}
    (h : d.Takes (tokenLines format source)) (v : Verbosity) :
    RunInput.outcome d ⟨format, v⟩ (.file (.ok source)) =
      ⟨if (scan source).errors = [] then 0 else 65, String.join (tokenLines format source),
        String.join ((diagnosticLines v source).map (· ++ "\n"))⟩ := by
  -- the course of the run has the scan, and then a text on standard output for each token
  have hstdout : (RunInput.course format (.file (.ok source))).events.map Event.stdout =
      "" :: tokenLines format source := by
    simp [RunInput.course, Event.ofScan, tokenLines, Event.stdout, Function.comp_def]
  have hstderr : (RunInput.course format (.file (.ok source))).events.map (Event.stderr v) =
      Event.stderr v (.scan source) :: List.replicate (scan source).tokens.length "" := by
    simp [RunInput.course, Event.ofScan, Event.stderr, Function.comp_def]
  have hfailure : (RunInput.course format (.file (.ok source))).failure =
      if (scan source).errors = [] then none else some (.lexing (scan source).errors) := by
    rw [RunInput.course, Scan.hasErrors]
    cases (scan source).errors <;> rfl
  rw [RunInput.outcome, transcript_onto_of_takes h, RunInput.transcript_eq_course,
    Course.ofTranscript_eq, hstdout, hstderr, Course.closing, Course.exitStatus, hfailure,
    String.join_cons, String.join_cons, join_replicate_empty, String.empty_append,
    String.append_empty, Event.stderr, diagnosticLines, shown_scanLogged, List.map_append,
    String.join_append, List.map_map]
  by_cases herrors : (scan source).errors = []
  · simp only [if_pos herrors]
    rfl
  · simp only [if_neg herrors, message_lexing herrors, List.map_cons, List.map_map,
      String.join_cons]
    rfl

/-- On standard output each token has a newline behind its text, and those in the text. -/
lemma newlines_tokenLines (format : TokenFormat) (source : String) :
    newlines (String.join (tokenLines format source)) = (scan source).tokens.length +
      ((scan source).tokens.map fun t => newlines (format.text t)).sum := by
  rw [newlines_join, tokenLines, List.map_map]
  induction (scan source).tokens with
  | nil => rfl
  | cons t tokens ih =>
    have hnewline : newlines "\n" = 1 := by decide
    simp only [List.map_cons, List.sum_cons, ih, Function.comp_apply, newlines_append, hnewline,
      List.length_cons]
    omega

/-- **The source text does not decide what is a line.** Messages of errors, records of the log and
debug texts of tokens have no newline, whatever the text; the canonical text of a token has none
unless the token is a string, and then it has each newline of the body twice. So a run over a file
that can print all tokens prints as many newlines as there are tokens, and in the canonical format
two more for each newline in the body of a string. The lines on standard error are one for each
record that is shown, and, if there are errors, the heading and one for each error; each of them is
a whole line, and lines of different sorts cannot be taken for each other. The program is this run
wherever its arguments ask for the tokens of a file with the text.

**Proof sketch.** What is taken from the text is escaped, and numbers are written with digits,
points and signs. The lexemes of all tokens but strings are parts of a line. Lines that are put
together are found again where they were. -/
theorem output_lines (source : String) :
    (∀ e ∈ (scan source).errors, IsOneLine e.message) ∧
    (∀ r ∈ (scanLogged source).records, IsOneLine r.message) ∧
    (∀ t ∈ (scan source).tokens, IsOneLine t.debugText ∧
      (IsOneLine t.canonical ∨ ∃ body, t.kind = .literal (.string body)) ∧
      ∀ body, t.kind = .literal (.string body) → newlines t.canonical = 2 * newlines body) ∧
    (∀ (d : Device) (v : Verbosity),
      (d.Takes (tokenLines .debug source) →
        newlines (RunInput.outcome d ⟨.debug, v⟩ (.file (.ok source))).stdout =
          (scan source).tokens.length) ∧
      (d.Takes (tokenLines .canonical source) →
        newlines (RunInput.outcome d ⟨.canonical, v⟩ (.file (.ok source))).stdout =
          (scan source).tokens.length +
            2 * ((scan source).tokens.map fun t => t.kind.bodyNewlines).sum) ∧
      ∀ format, d.Takes (tokenLines format source) →
        let stderr := (RunInput.outcome d ⟨format, v⟩ (.file (.ok source))).stderr
        textLines stderr = (diagnosticLines v source).map (· ++ "\n") ∧
        (∀ line ∈ textLines stderr, EndsLine line) ∧
        newlines stderr = (v.shown (scanLogged source).records).length +
          if (scan source).errors = [] then 0 else 1 + (scan source).errors.length) ∧
    (∀ (r : LogRecord) (e : LexError),
      r.line ≠ e.message ∧ r.line ≠ errorHeading ∧ e.message ≠ errorHeading) ∧
    ∀ (w : World) (arguments : List String) (path : String) (settings : Settings),
      Request.ofArguments arguments w.environment = .ok (.tokens path settings) →
      w.readFile path = .ok source → w.stdoutFailure = none →
      runProgram arguments w = RunInput.outcome (.ofFailure none) settings (.file (.ok source)) ∧
        ∀ texts, (Device.ofFailure none).Takes texts := by
  have hcanonical : ∀ t ∈ (scan source).tokens, newlines t.canonical = 2 * t.kind.bodyNewlines :=
    fun t ht => (wellFormed_of_mem_tokens ht).newlines_canonical
  refine ⟨fun e _ => e.isOneLine_message, fun r => isOneLine_of_mem_records, fun t ht => ?_,
    fun d v => ⟨fun htakes => ?_, fun htakes => ?_, fun format htakes => ?_⟩, LogRecord.line_ne,
    fun w arguments path settings hrequest hread hwritable => ?_⟩
  · refine ⟨t.isOneLine_debugText, ?_, fun body hbody => ?_⟩
    · by_cases hzero : t.kind.bodyNewlines = 0
      · exact .inl (newlines_eq_zero_iff.1 (by rw [hcanonical t ht, hzero]))
      · right
        unfold Kind.bodyNewlines at hzero
        split at hzero
        · exact ⟨_, by assumption⟩
        · exact absurd rfl hzero
    · rw [hcanonical t ht, hbody]
      rfl
  · rw [outcome_of_takes htakes, newlines_tokenLines,
      List.sum_eq_zero fun n hn => ?_, Nat.add_zero]
    obtain ⟨t, -, rfl⟩ := List.mem_map.1 hn
    exact newlines_eq_zero_iff.2 t.isOneLine_debugText
  · rw [outcome_of_takes htakes, newlines_tokenLines, ← List.sum_map_mul_left]
    exact congrArg _ (congrArg List.sum (List.map_congr_left hcanonical))
  · have hlines : ∀ line ∈ (diagnosticLines v source).map (· ++ "\n"), EndsLine line := by
      intro line hline
      obtain ⟨text, htext, rfl⟩ := List.mem_map.1 hline
      exact (isOneLine_of_mem_diagnosticLines htext).endsLine
    rw [outcome_of_takes htakes]
    dsimp only
    rw [textLines_join hlines]
    refine ⟨rfl, hlines, ?_⟩
    rw [newlines_join, List.map_congr_left fun line hline => (hlines line hline).newlines_eq,
      List.map_const', List.sum_replicate, List.length_map, length_diagnosticLines]
    simp
  · rw [runProgram_eq_outcome hrequest rfl, hread, hwritable]
    exact ⟨rfl, fun texts front text behind _ => rfl⟩

/-- A world in which every file has a string over two lines and a bad character. -/
private def openLineWorld : World where
  environment := ⟨none, none⟩
  readFile := fun _ => .ok "\"a\nb\" \x1b"
  input := []
  stdoutFailure := none

/-- The string is printed over three lines, and the end of the text on a fourth one. Standard error
has the records of three items and the summary, and then a heading and one error. -/
theorem output_lines_of_string :
    newlines (runProgram ["--log-level", "trace", "a"] openLineWorld).stdout = 4 ∧
      (textLines (runProgram ["--log-level", "trace", "a"] openLineWorld).stderr).length = 6 := by
  obtain ⟨-, -, -, hrun, -, hprogram⟩ := output_lines "\"a\nb\" \x1b"
  obtain ⟨houtcome, htakes⟩ :=
    hprogram openLineWorld ["--log-level", "trace", "a"] "a" ⟨.canonical, .upTo .trace⟩ rfl rfl rfl
  obtain ⟨-, hstdout, hstderr⟩ := hrun (.ofFailure none) (.upTo .trace)
  rw [houtcome, hstdout (htakes _), (hstderr .canonical (htakes _)).1]
  decide +kernel

end LoxLex
