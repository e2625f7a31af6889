import LoxLex.Proofs.Exhaustion
import LoxLex.Proofs.LogLevels
import LoxLex.Proofs.SourceSpans
import LoxLex.Proofs.TextLines

set_option relaxedAutoImplicit false
set_option autoImplicit false

/-!
# Runs over a file

A run over a file has one of five outcomes. The file cannot be read, or its bytes are not the
encoding of a text; standard output refuses one of the lines for the tokens; or all of them are
printed, and the text has errors or not. An earlier one of these keeps a run from the later ones:
no error of a text is reported before all its tokens are printed, and no token is withheld because
of an error.

## Main definitions

* `LoxLex.tokenLines`, `LoxLex.errorLines` — the lines for the tokens and for the errors of a text.
* `LoxLex.FileRun` — the outcomes of a run over a file.

## Main results

* `LoxLex.fileRun_iff_outcome` — the run has the one outcome that the rules give it.
-/

namespace LoxLex

/-! ## Lines for tokens and errors -/

/-- The lines for the tokens of a text. -/
def tokenLines (format : TokenFormat) (source : String) : List String :=
  (scan source).tokens.map fun t => format.text t ++ "\n"

/-- The lines for the errors of a text. -/
def errorLines (source : String) : List String :=
  (scan source).errors.map fun e => e.message ++ "\n"

/-- A line for a token is not empty, since it has its newline. -/
lemma empty_notMem_tokenLines (format : TokenFormat) (source : String) :
    "" ∉ tokenLines format source := by
  intro h
  obtain ⟨t, -, hempty⟩ := List.mem_map.1 h
  simpa using congrArg String.toList hempty

/-- Texts with newlines between them, and one behind them, are lines. -/
lemma intercalate_newline {texts : List String} (h : texts ≠ []) :
    "\n".intercalate texts ++ "\n" = String.join (texts.map (· ++ "\n")) := by
  induction texts with
  | nil => exact absurd rfl h
  | cons text texts ih =>
    by_cases hnil : texts = []
    · subst hnil
      simp
    · rw [String.intercalate_cons_of_ne_nil hnil, String.append_assoc, ih hnil, List.map_cons,
        String.join_cons]

/-- The report of errors that end a run. -/
lemma message_lexing {errors : List LexError} (h : errors ≠ []) :
    (RunError.lexing errors).message ++ "\n" =
      "Errors when scanning:\n" ++ String.join (errors.map fun e => e.message ++ "\n") := by
  have hmessages : errors.map LexError.message ≠ [] := mt List.map_eq_nil_iff.1 h
  have hlines := intercalate_newline hmessages
  rw [List.map_map] at hlines
  calc (RunError.lexing errors).message ++ "\n"
      = "Errors when scanning:\n" ++ "\n".intercalate (errors.map LexError.message) ++ "\n" := rfl
    _ = "Errors when scanning:\n" ++
        ("\n".intercalate (errors.map LexError.message) ++ "\n") := String.append_assoc
    _ = _ := congrArg _ hlines

/-- The tokens of a text, and its errors, are in the order of their places in it. -/
lemma scan_pairwise (source : String) :
    ((scan source).tokens.Pairwise fun a b => a.span.start < b.span.start) ∧
      (scan source).errors.Pairwise fun a b => a.span.start < b.span.start := by
  obtain ⟨ps, hps⟩ := exists_splits source.toList
  have hstarts := (items_of_splits hps ▸ hps.addressed : Addressed _ (items source)).starts_lt
  constructor
  · have htokens := List.pairwise_map.1 (hstarts.sublist (Scan.tokens_sublist (items source)))
    exact htokens
  · have herrors := List.pairwise_map.1 (hstarts.sublist (Scan.errors_sublist (items source)))
    exact herrors

/-! ## The outcomes of a run -/

/-- The outcome of a run over a file, given what can be read of the file. -/
inductive FileRun (d : Device) (format : TokenFormat) (file : Except IoError (List UInt8)) :
    Outcome → Prop where
  /-- The file cannot be read. -/
  | unread {cause : IoError} (h : file = .error cause) :
    FileRun d format file ⟨66, "", "Error reading source file: " ++ cause.message ++ "\n"⟩
  /-- The bytes of the file are not the encoding of a text. -/
  | wrongBytes {bytes : List UInt8} (h : file = .ok bytes)
      (hwrong : ∀ text, encodeText text ≠ bytes) :
    FileRun d format file
      ⟨66, "", "Error reading source file: " ++ IoError.invalidEncoding.message ++ "\n"⟩
  /-- Standard output refuses the line for a token, and may have taken a part of it. -/
  | refused {source : String} {front behind : List String} {line part : String} {cause : IoError}
      (h : file = .ok (encodeText source))
      (hlines : tokenLines format source = front ++ line :: behind) (htakes : d.Takes front)
      (hrefused : d (String.join front) line = some (part, cause)) :
    FileRun d format file ⟨74, String.join front ++ part, "I/O error: " ++ cause.message ++ "\n"⟩
  /-- All lines are printed, and the text has no errors. -/
  | clean {source : String} (h : file = .ok (encodeText source))
      (htakes : d.Takes (tokenLines format source)) (hclean : (scan source).errors = []) :
    FileRun d format file ⟨0, String.join (tokenLines format source), ""⟩
  /-- All lines are printed, and the text has errors. -/
  | faulty {source : String} (h : file = .ok (encodeText source))
      (htakes : d.Takes (tokenLines format source)) (hfaulty : (scan source).errors ≠ []) :
    FileRun d format file
      ⟨65, String.join (tokenLines format source),
        "Errors when scanning:\n" ++ String.join (errorLines source)⟩

/-- The run over the contents of a file whose bytes are given, with nothing of the log shown. -/
def fileOutcome (d : Device) (format : TokenFormat) (file : Except IoError (List UInt8)) :
    Outcome :=
  RunInput.outcome d ⟨format, .off⟩ (.file (file >>= decodeText))

/-- Texts on standard output are seen there, and standard error has the error that ends the run. -/
lemma ofTranscript_outs (texts : List String) (failure : Option RunError) :
    Outcome.ofTranscript ⟨texts.map .out, failure⟩ =
      ⟨(Transcript.mk [] failure).exitStatus, String.join texts,
        (Transcript.mk [] failure).stderr⟩ := by
  have hout : (texts.map Output.out).map Output.stdout = texts := by
    rw [List.map_map]
    exact List.map_id texts
  have herr : String.join ((texts.map Output.out).map Output.stderr) = "" := by
    clear hout
    induction texts with
    | nil => rfl
    | cons text texts ih =>
      rw [List.map_cons, List.map_cons, String.join_cons, ih]
      rfl
  rw [Outcome.ofTranscript, Transcript.stdout, Transcript.stderr, hout, herr]
  rfl

/-- A text in a file is printed line by line. -/
lemma fileOutcome_text (d : Device) (format : TokenFormat) (source : String) :
    fileOutcome d format (.ok (encodeText source)) =
      .ofTranscript (Transcript.onto d ⟨(tokenLines format source).map .out,
        if (scan source).errors = [] then none else some (.lexing (scan source).errors)⟩) := by
  have hdecode : (Except.ok (encodeText source) >>= decodeText) = .ok source :=
    decodeText_encodeText source
  have hfailure :
      (if (scan source).hasErrors then some (RunError.lexing (scan source).errors) else none) =
        if (scan source).errors = [] then none else some (.lexing (scan source).errors) := by
    rw [Scan.hasErrors]
    cases (scan source).errors <;> rfl
  rw [fileOutcome, RunInput.outcome, hdecode, RunInput.transcript, fileTranscript]
  simp only [scanLogged_value, hfailure, Settings.logOutputs, Verbosity.shown_off, List.map_nil,
    List.nil_append, Settings.tokenOutputs, tokenLines, List.map_map, Function.comp_def]

/-- A run that prints all lines ends as the errors of the text have it. -/
lemma fileOutcome_of_takes {d : Device} {format : TokenFormat} {source : String}
    (h : d.Takes (tokenLines format source)) :
    fileOutcome d format (.ok (encodeText source)) =
      if (scan source).errors = [] then ⟨0, String.join (tokenLines format source), ""⟩
      else ⟨65, String.join (tokenLines format source),
        "Errors when scanning:\n" ++ String.join (errorLines source)⟩ := by
  have hwrite := Device.write_takes h (empty_notMem_tokenLines format source) []
  rw [List.append_nil, Device.write, List.append_nil] at hwrite
  rw [fileOutcome_text, Transcript.onto, hwrite]
  simp only [ofTranscript_outs]
  by_cases herrors : (scan source).errors = []
  · simp only [if_pos herrors]
    rfl
  · simp only [if_neg herrors, errorLines, ← message_lexing herrors]
    rfl

/-- A run ends where standard output refuses a line. -/
lemma fileOutcome_of_refuses {d : Device} {format : TokenFormat} {source : String}
    {front behind : List String} {line part : String} {cause : IoError}
    (hlines : tokenLines format source = front ++ line :: behind) (htakes : d.Takes front)
    (hrefused : d (String.join front) line = some (part, cause)) :
    fileOutcome d format (.ok (encodeText source)) =
      ⟨74, String.join front ++ part, "I/O error: " ++ cause.message ++ "\n"⟩ := by
  have hne := empty_notMem_tokenLines format source
  rw [hlines, List.mem_append, List.mem_cons, not_or, not_or] at hne
  have hwrite := Device.write_takes htakes hne.1 (.out line :: behind.map .out)
  rw [Device.write, if_pos (Output.writesOut_out (Ne.symm hne.2.1))] at hwrite
  simp only [Output.stdout, hrefused] at hwrite
  have houts : front.map Output.out ++ [.out part] = (front ++ [part]).map .out := by simp
  rw [fileOutcome_text, Transcript.onto, hlines, List.map_append, List.map_cons, hwrite]
  simp only [houts, ofTranscript_outs, String.join_append, String.join_cons, String.join_nil,
    String.append_empty]
  rfl

/-- A run over a file that cannot be read, or not as a text, prints nothing. -/
lemma fileOutcome_of_error {d : Device} {format : TokenFormat} {file : Except IoError (List UInt8)}
    {cause : IoError} (h : (file >>= decodeText) = .error cause) :
    fileOutcome d format file =
      ⟨66, "", "Error reading source file: " ++ cause.message ++ "\n"⟩ := by
  rw [fileOutcome, RunInput.outcome, h]
  exact ofTranscript_outs [] _

/-- Each run has one of the outcomes. -/
lemma fileRun_fileOutcome (d : Device) (format : TokenFormat) (file : Except IoError (List UInt8)) :
    FileRun d format file (fileOutcome d format file) := by
  cases file with
  | error cause =>
    have hunread : (Except.error cause >>= decodeText) = .error cause := rfl
    rw [fileOutcome_of_error hunread]
    exact .unread rfl
  | ok bytes =>
    by_cases htext : ∃ source, encodeText source = bytes
    · obtain ⟨source, rfl⟩ := htext
      rcases d.takes_or_refuses (tokenLines format source) with
        htakes | ⟨front, line, behind, part, cause, hlines, htakes, hrefused⟩
      · rw [fileOutcome_of_takes htakes]
        by_cases herrors : (scan source).errors = []
        · rw [if_pos herrors]
          exact .clean rfl htakes herrors
        · rw [if_neg herrors]
          exact .faulty rfl htakes herrors
      · rw [fileOutcome_of_refuses hlines htakes hrefused]
        exact .refused rfl hlines htakes hrefused
    · rw [fileOutcome_of_error (decodeText_of_unreadable (not_exists.1 htext))]
      exact .wrongBytes rfl (not_exists.1 htext)

/-- It has no other one. -/
lemma FileRun.eq_fileOutcome {d : Device} {format : TokenFormat}
    {file : Except IoError (List UInt8)} {o : Outcome} (h : FileRun d format file o) :
    o = fileOutcome d format file := by
  cases h with
  | unread h => exact (fileOutcome_of_error (by rw [h]; rfl)).symm
  | wrongBytes h hwrong =>
    subst h
    exact (fileOutcome_of_error (decodeText_of_unreadable hwrong)).symm
  | refused h hlines htakes hrefused =>
    subst h
    exact (fileOutcome_of_refuses hlines htakes hrefused).symm
  | clean h htakes hclean =>
    subst h
    rw [fileOutcome_of_takes htakes, if_pos hclean]
  | faulty h htakes hfaulty =>
    subst h
    rw [fileOutcome_of_takes htakes, if_neg hfaulty]

/-- **A run over a file has the outcome that the rules give it.** Take what can be read of a file,
either form of tokens and any standard output; nothing of the log is shown. The run has exactly one
of the outcomes, and which one is decided in their order: whether the file can be read, whether
standard output takes the lines for all tokens, and whether the text has errors. The lines for the
tokens, and those for the errors, are in the order of the text, and the line for its end is the last
one for a token. The program is this run wherever its arguments ask for it.

**Proof sketch.** Standard output takes all lines, or there is a first one that it refuses. -/
theorem fileRun_iff_outcome (d : Device) (format : TokenFormat)
    (file : Except IoError (List UInt8)) :
    (∀ o, FileRun d format file o ↔ o = fileOutcome d format file) ∧
    (∀ source,
      ((scan source).tokens.Pairwise fun a b => a.span.start < b.span.start) ∧
      ((scan source).errors.Pairwise fun a b => a.span.start < b.span.start) ∧
      ∃ front l, (scan source).tokens = front ++ [⟨.endOfInput, "", Span.empty l⟩] ∧
        ∀ t ∈ front, t.isEnd = false) ∧
    ∀ (w : World) (arguments : List String) (path : String),
      Request.ofArguments arguments w.environment = .ok (.tokens path ⟨format, .off⟩) →
      w.readFile path = file >>= decodeText → .ofFailure w.stdoutFailure = d →
      runProgram arguments w = fileOutcome d format file := by
  refine ⟨fun o => ⟨fun h => h.eq_fileOutcome, ?_⟩, fun source => ?_, ?_⟩
  · rintro rfl
    exact fileRun_fileOutcome d format file
  · obtain ⟨htokens, herrors⟩ := scan_pairwise source
    obtain ⟨front, l, hend, hfront⟩ := tokens_scan source
    exact ⟨htokens, herrors, front, l, hend, fun t ht => (hfront t ht).1⟩
  · rintro w arguments path hrequest hread rfl
    rw [fileOutcome, ← hread]
    exact runProgram_eq_outcome hrequest rfl

/-- A world in which standard output is full and every file has a token and a bad character. -/
private def fullDeviceWorld : World where
  environment := ⟨none, none⟩
  readFile := fun _ => .ok "1 @"
  input := []
  stdoutFailure := some .noSpaceLeft

/-- Where standard output is full, the first line is refused and the bad character is not
reported. -/
theorem fileRun_iff_outcome_on_full_device :
    (scan "1 @").errors ≠ [] ∧
      runProgram ["--log-level", "off", "a"] fullDeviceWorld =
        ⟨74, "", "I/O error: No space left on device (os error 28)\n"⟩ := by
  obtain ⟨houtcome, -, hprogram⟩ :=
    fileRun_iff_outcome (.ofFailure (some .noSpaceLeft)) .canonical (.ok (encodeText "1 @"))
  have hlines : tokenLines .canonical "1 @" = [] ++ "NUMBER 1 1.0\n" :: ["EOF  null\n"] := by
    decide +kernel
  have hrefused : FileRun (.ofFailure (some .noSpaceLeft)) .canonical (.ok (encodeText "1 @"))
      ⟨74, String.join [] ++ "", "I/O error: " ++ IoError.noSpaceLeft.message ++ "\n"⟩ :=
    .refused rfl hlines Device.Takes.nil rfl
  refine ⟨by decide +kernel, ?_⟩
  rw [hprogram fullDeviceWorld _ "a" rfl (decodeText_encodeText "1 @").symm rfl,
    ← (houtcome _).1 hrefused]
  decide +kernel

end LoxLex
