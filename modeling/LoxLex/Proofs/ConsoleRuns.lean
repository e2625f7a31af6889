import LoxLex.Program
import Mathlib.Data.List.Basic
import Mathlib.Data.List.Induction
import Mathlib.Tactic.Lemma

set_option relaxedAutoImplicit false
set_option autoImplicit false

/-!
# Runs on consoles

A run on a console can be taken one stream at a time. What standard output refuses does not depend
on standard error, and it leaves a shorter run with an error of its own. This shorter run then goes
as if standard output took every text, up to the first text that standard error refuses.

## Main definitions

* `LoxLex.Device.Takes` — texts that a stream takes.
* `LoxLex.Device.write`, `LoxLex.Transcript.onto` — a run with regard to standard output alone.
* `LoxLex.Output.errTexts`, `LoxLex.Transcript.errTexts` — the texts for standard error.
* `LoxLex.Console.unblocked` — a console on which standard output takes every text.
* `LoxLex.Device.PassesOver` — texts that a stream takes and otherwise takes no notice of.

## Main results

* `LoxLex.Device.takes_or_refuses` — texts are taken, or there is a first one that is refused.
* `LoxLex.Device.write_takes` — texts that are taken are written.
* `LoxLex.Console.outcome_eq_onto` — standard output can be looked at first.
* `LoxLex.Console.outcome_of_takes` — the run if standard error takes all texts.
* `LoxLex.Console.exists_outcome_of_refused_record` — the run if standard error refuses a record.
-/

namespace LoxLex

/-! ## Texts that a stream takes -/

namespace Device

variable {d : Device}

/-- All texts are taken, one after the other. -/
def Takes (d : Device) (texts : List String) : Prop :=
  ∀ front text behind, texts = front ++ text :: behind → d (String.join front) text = none

/-- Nothing is refused where nothing is written. -/
lemma Takes.nil : d.Takes [] := fun _ _ _ h => absurd h (by simp)

/-- A further text has to be taken behind the others. -/
lemma takes_concat_iff (texts : List String) (last : String) :
    d.Takes (texts ++ [last]) ↔ d.Takes texts ∧ d (String.join texts) last = none := by
  constructor
  · intro h
    refine ⟨?_, h texts last [] rfl⟩
    rintro front text behind rfl
    exact h front text (behind ++ [last]) (by simp)
  · rintro ⟨htexts, hlast⟩ front text behind h
    rcases List.eq_nil_or_concat behind with rfl | ⟨others, other, rfl⟩
    · obtain ⟨rfl, hsame⟩ := List.append_inj' h rfl
      obtain rfl := List.singleton_inj.1 hsame
      exact hlast
    · refine htexts front text others ?_
      rw [List.concat_eq_append, ← List.cons_append, ← List.append_assoc] at h
      exact (List.append_inj' h rfl).1

/-- Of texts that are taken the first ones are taken. -/
lemma Takes.of_append {front behind : List String} (h : d.Takes (front ++ behind)) :
    d.Takes front := by
  rintro before text others rfl
  exact h before text (others ++ behind) (by simp)

/-- Texts are taken, or there is a first one that is refused.

**Proof sketch.** Induction on the texts from behind. Where one is refused before the last one,
this last one does not matter. -/
lemma takes_or_refuses (d : Device) (texts : List String) :
    d.Takes texts ∨ ∃ front text behind part cause, texts = front ++ text :: behind ∧
      d.Takes front ∧ d (String.join front) text = some (part, cause) := by
  induction texts using List.reverseRecOn with
  | nil => exact .inl Takes.nil
  | append_singleton texts last ih =>
    rcases ih with htakes | ⟨front, text, behind, part, cause, rfl, hrefused⟩
    · cases hlast : d (String.join texts) last with
      | none => exact .inl ((takes_concat_iff texts last).2 ⟨htakes, hlast⟩)
      | some refusal => exact .inr ⟨texts, last, [], _, _, rfl, htakes, hlast⟩
    · exact .inr ⟨front, text, behind ++ [last], part, cause, by simp, hrefused⟩

/-- The empty text is never refused. -/
@[simp] lemma refusal?_empty (taken : String) : d.refusal? taken "" = none := if_pos rfl

/-- A text that a device takes is not refused. -/
lemma refusal?_of_eq_none {taken text : String} (h : d taken text = none) :
    d.refusal? taken text = none := by
  rw [refusal?, h, ite_self]

/-- Every other text is given to the device. -/
lemma refusal?_of_ne {taken text : String} (h : text ≠ "") : d.refusal? taken text = d taken text :=
  if_neg h

end Device

/-! ## Standard output alone -/

/-- A text that is not empty is one for standard output. -/
lemma Output.writesOut_out {text : String} (h : text ≠ "") : (out text).writesOut = true := by
  simpa [writesOut, stdout] using h

namespace Device

/-- What is written of some outputs until the first text is refused, and the cause for that. -/
def write (d : Device) : String → List Output → List Output × Option IoError
  | _, [] => ([], none)
  | taken, o :: others =>
    if o.writesOut then
      match d taken o.stdout with
      | some (part, cause) => ([.out part], some cause)
      | none =>
        let (written, failure) := d.write (taken ++ o.stdout) others
        (o :: written, failure)
    else
      let (written, failure) := d.write taken others
      (o :: written, failure)

end Device

/-- The run as it goes if its texts for standard output are given to a device: it ends where one of
them is refused. -/
def Transcript.onto (d : Device) (t : Transcript) : Transcript :=
  match d.write "" t.outputs with
  | (written, none) => ⟨written, t.failure⟩
  | (written, some cause) => ⟨written, some (.stream cause)⟩

namespace Device

variable {d : Device}

/-- A device that takes every text takes all of them. -/
lemma write_of_takes (h : ∀ taken text, d taken text = none) (taken : String)
    (outputs : List Output) : d.write taken outputs = (outputs, none) := by
  induction outputs generalizing taken with
  | nil => rfl
  | cons o outputs ih =>
    rw [write]
    split <;> simp [h, ih]

/-- What is not for standard output is written whatever the device. -/
lemma write_append_of_silent (d : Device) (taken : String) {silent : List Output}
    (h : ∀ o ∈ silent, o.writesOut = false) (others : List Output) :
    d.write taken (silent ++ others) =
      (silent ++ (d.write taken others).1, (d.write taken others).2) := by
  induction silent with
  | nil => rfl
  | cons o silent ih =>
    obtain ⟨ho, hsilent⟩ := List.forall_mem_cons.1 h
    simp [write, ho, ih hsilent]

/-- Texts that are taken are written, and what comes behind them is given to the device then. -/
lemma write_takes {texts : List String} (h : d.Takes texts) (hne : "" ∉ texts)
    (others : List Output) :
    d.write "" (texts.map .out ++ others) =
      (texts.map .out ++ (d.write (String.join texts) others).1,
        (d.write (String.join texts) others).2) := by
  induction texts using List.reverseRecOn generalizing others with
  | nil => rfl
  | append_singleton texts last ih =>
    obtain ⟨htexts, hlast⟩ := (takes_concat_iff texts last).1 h
    obtain ⟨hne, hlastne⟩ : "" ∉ texts ∧ "" ≠ last := by simpa using hne
    rw [List.map_append, List.append_assoc, ih htexts hne, List.map_singleton,
      List.singleton_append, write, if_pos (Output.writesOut_out (Ne.symm hlastne))]
    simp [Output.stdout, hlast, String.join_append]

end Device

namespace Console

variable (c : Console)

/-- The console on which standard output takes every text. -/
def unblocked : Console := ⟨.ofFailure none, c.err, c.wording⟩

/-- A step of a run where standard output takes every text. -/
lemma run_unblocked_cons (failure : Option RunError) (printed reported : String) (o : Output)
    (others : List Output) :
    c.unblocked.run failure printed reported (o :: others) =
      match c.err.refusal? reported o.stderr with
      | some (part, cause) =>
        c.unblocked.interrupt printed (reported ++ part) (o.interruption cause)
      | none => c.unblocked.run failure (printed ++ o.stdout) (reported ++ o.stderr) others := by
  rw [run, show c.unblocked.out.refusal? printed o.stdout = none from
    Device.refusal?_of_eq_none rfl]
  cases h : c.err.refusal? reported o.stderr <;>
    simp only [show c.unblocked.err.refusal? reported o.stderr = _ from h]

/-- A text for standard output leaves standard error as it is. -/
lemma run_unblocked_out (failure : Option RunError) (printed reported text : String)
    (others : List Output) :
    c.unblocked.run failure printed reported (.out text :: others) =
      c.unblocked.run failure (printed ++ text) reported others := by
  rw [run_unblocked_cons, Output.stderr, Device.refusal?_empty, Output.stdout, String.append_empty]

/-- What standard output refuses can be found first, and the outputs written then.

**Proof sketch.** Induction on the outputs. A text for standard output leaves standard error as it
is, and the other way round. -/
theorem run_eq_write (failure : Option RunError) (printed reported : String)
    (outputs : List Output) :
    c.run failure printed reported outputs =
      c.unblocked.run ((c.out.write printed outputs).2.elim failure fun cause =>
          some (.stream cause))
        printed reported (c.out.write printed outputs).1 := by
  induction outputs generalizing printed reported with
  | nil => rfl
  | cons o outputs ih =>
    have hquiet : o.stdout = "" →
        c.run failure printed reported (o :: outputs) =
          c.unblocked.run ((c.out.write printed outputs).2.elim failure fun cause =>
            some (.stream cause)) printed reported (o :: (c.out.write printed outputs).1) := by
      intro h
      rw [run, run_unblocked_cons, h, Device.refusal?_empty]
      cases c.err.refusal? reported o.stderr with
      | some refusal => rfl
      | none => simpa using ih printed (reported ++ o.stderr)
    cases o with
    | err text | log record => exact hquiet rfl
    | out text =>
      by_cases hempty : text = ""
      · subst hempty
        exact hquiet rfl
      · have hwrites := Output.writesOut_out hempty
        have hreply : c.out.refusal? printed text = c.out printed text :=
          Device.refusal?_of_ne hempty
        rw [run, Device.write, if_pos hwrites]
        cases hrefused : c.out printed text with
        | some refusal =>
          simp only [Output.stdout, hreply, hrefused, run_unblocked_out, Option.elim]
          rfl
        | none =>
          simp only [Output.stdout, Output.stderr, hreply, hrefused, run_unblocked_out,
            Device.refusal?_empty, String.append_empty, ih]

/-- Standard output can be looked at first. -/
theorem outcome_eq_onto (t : Transcript) :
    c.outcome t = c.unblocked.outcome (t.onto c.out) := by
  rw [outcome, run_eq_write, Transcript.onto]
  rcases c.out.write "" t.outputs with ⟨written, _ | cause⟩ <;> rfl

end Console

/-! ## Standard error -/

/-- The texts of an output for standard error. -/
def Output.errTexts : Output → List String
  | out _ => []
  | err text => [text]
  | log record => [record.line ++ "\n"]

/-- The texts of a run for standard error, one by one. The report on the error that ended the run
comes last. -/
def Transcript.errTexts (t : Transcript) : List String :=
  t.outputs.flatMap Output.errTexts ++
    match t.failure with
    | some error => [error.message ++ "\n"]
    | none => []

/-- Together the texts for standard error are what is seen there. -/
lemma join_errTexts (outputs : List Output) :
    String.join (outputs.flatMap Output.errTexts) = String.join (outputs.map Output.stderr) := by
  have hone : ∀ o : Output, String.join o.errTexts = o.stderr := by
    intro o
    cases o <;> simp [Output.errTexts, Output.stderr]
  induction outputs with
  | nil => rfl
  | cons o outputs ih =>
    rw [List.flatMap_cons, String.join_append, hone, ih, List.map_cons, String.join_cons]

namespace Console

variable {c : Console}

/-- The outputs whose texts standard error takes are written, and the run goes on behind them.

**Proof sketch.** Induction on the outputs from behind, since what is taken before a text is that of
all outputs before it. -/
lemma run_append_of_takes {front : List Output} (h : c.err.Takes (front.flatMap Output.errTexts))
    (failure : Option RunError) (behind : List Output) :
    c.unblocked.run failure "" "" (front ++ behind) =
      c.unblocked.run failure (String.join (front.map Output.stdout))
        (String.join (front.map Output.stderr)) behind := by
  induction front using List.reverseRecOn generalizing behind with
  | nil => rfl
  | append_singleton front o ih =>
    rw [List.flatMap_append] at h
    have htaken : c.err.refusal? (String.join (front.map Output.stderr)) o.stderr = none := by
      cases o with
      | out text => exact Device.refusal?_empty _
      | err text | log record =>
        have hlast := ((Device.takes_concat_iff _ _).1 h).2
        rw [join_errTexts] at hlast
        exact Device.refusal?_of_eq_none hlast
    rw [List.append_assoc, ih h.of_append, List.singleton_append, run_unblocked_cons, htaken]
    simp [String.join_append]

/-- Where standard error takes all texts, a run is seen as it is written. -/
theorem outcome_of_takes {t : Transcript} (h : c.err.Takes t.errTexts) :
    c.unblocked.outcome t = .ofTranscript t := by
  have hrun := run_append_of_takes h.of_append t.failure []
  rw [List.append_nil] at hrun
  rw [outcome, hrun, run, Outcome.ofTranscript, Transcript.stdout, Transcript.stderr,
    Transcript.exitStatus]
  cases hfailure : t.failure with
  | none => simp [conclude]
  | some error =>
    rw [Transcript.errTexts, hfailure] at h
    have hlast := ((Device.takes_concat_iff _ _).1 h).2
    rw [join_errTexts] at hlast
    simp only [conclude,
      show c.unblocked.err.refusal? _ _ = none from Device.refusal?_of_eq_none hlast]

/-- Where standard error takes every text there is, a run is seen as standard output leaves it. -/
lemma outcome_ofFailure (failure : Option IoError) (t : Transcript) :
    (ofFailure failure).outcome t = .ofTranscript (t.onto (.ofFailure failure)) := by
  rw [outcome_eq_onto, outcome_of_takes fun _ _ _ _ => rfl]
  rfl

end Console

/-! ## Texts that standard error passes over -/

namespace Device

variable {d : Device} {a b : String}

/-- A text is passed over if it is taken and what comes behind it is treated as it would be without
it. -/
def PassesOver (d : Device) (text : String) : Prop :=
  ∀ before, d before text = none ∧ ∀ behind, d (before ++ text ++ behind) = d (before ++ behind)

/-- What a device took before makes no difference for what comes now. -/
def Alike (d : Device) (a b : String) : Prop := ∀ behind, d (a ++ behind) = d (b ++ behind)

/-- It makes none either behind a further text. -/
lemma Alike.append (h : d.Alike a b) (text : String) : d.Alike (a ++ text) (b ++ text) := by
  intro behind
  rw [String.append_assoc, String.append_assoc, h]

/-- The same texts are refused then, at the same place and for the same cause. -/
lemma Alike.refusal?_eq (h : d.Alike a b) (text : String) :
    d.refusal? a text = d.refusal? b text := by
  have hsame := h ""
  rw [String.append_empty, String.append_empty] at hsame
  rw [refusal?, refusal?, hsame]

/-- A text that is passed over makes no difference. -/
lemma Alike.passOver {text : String} (h : d.Alike a b) (htext : d.PassesOver text) :
    d.Alike (a ++ text) b := by
  intro behind
  rw [(htext a).2 behind, h]

/-- The same is taken of the same texts. -/
lemma exists_offer (d : Device) (base : String) (texts : List String) :
    ∃ rest, ∀ taken, d.Alike taken base → d.offer taken texts = taken ++ rest := by
  induction texts generalizing base with
  | nil => exact ⟨"", fun taken _ => (String.append_empty).symm⟩
  | cons text texts ih =>
    cases hrefused : d.refusal? base text with
    | none =>
      obtain ⟨rest, hrest⟩ := ih (base ++ text)
      refine ⟨text ++ rest, fun taken h => ?_⟩
      rw [offer, h.refusal?_eq, hrefused, hrest _ (h.append text), String.append_assoc]
    | some refusal =>
      obtain ⟨rest, hrest⟩ := ih (base ++ refusal.1)
      refine ⟨refusal.1 ++ rest, fun taken h => ?_⟩
      rw [offer, h.refusal?_eq, hrefused]
      exact (hrest _ (h.append refusal.1)).trans String.append_assoc

end Device

namespace Console

/-- A crash leaves the same behind what makes no difference. -/
lemma exists_crash (c : Console) (printed base : String) (cause : IoError) :
    ∃ rest, ∀ reported, c.err.Alike reported base →
      c.crash printed reported cause = ⟨crashStatus, printed, reported ++ rest⟩ := by
  obtain ⟨rest, hrest⟩ := c.err.exists_offer base (c.wording.crash cause)
  exact ⟨rest, fun reported h => by rw [crash, hrest reported h]⟩

/-- So does the end of a run. -/
lemma exists_conclude (c : Console) (printed base : String) (failure : Option RunError) :
    ∃ exit rest, ∀ reported, c.err.Alike reported base →
      c.conclude printed reported failure = ⟨exit, printed, reported ++ rest⟩ := by
  cases failure with
  | none => exact ⟨0, "", fun reported _ => by rw [conclude, String.append_empty]⟩
  | some error =>
    cases hrefused : c.err.refusal? base (error.message ++ "\n") with
    | none =>
      refine ⟨error.exitStatus, error.message ++ "\n", fun reported h => ?_⟩
      rw [conclude, h.refusal?_eq, hrefused]
    | some refusal =>
      obtain ⟨rest, hrest⟩ := c.exists_crash printed (base ++ refusal.1) refusal.2
      refine ⟨crashStatus, refusal.1 ++ rest, fun reported h => ?_⟩
      rw [conclude, h.refusal?_eq, hrefused]
      exact (hrest _ (h.append refusal.1)).trans (by rw [String.append_assoc])

/-- And so does a refused output. -/
lemma exists_interrupt (c : Console) (printed base : String) (i : Interruption) :
    ∃ exit rest, ∀ reported, c.err.Alike reported base →
      c.interrupt printed reported i = ⟨exit, printed, reported ++ rest⟩ := by
  cases i with
  | failed error => exact c.exists_conclude printed base (some error)
  | crashed cause =>
    obtain ⟨rest, hrest⟩ := c.exists_crash printed base cause
    exact ⟨crashStatus, rest, hrest⟩

/-- Records that are passed over are written, and nothing comes to depend on them. -/
lemma run_logs {c : Console} {records : List LogRecord} {reported base : String}
    (h : ∀ r ∈ records, c.err.PassesOver (r.line ++ "\n")) (halike : c.err.Alike reported base)
    (failure : Option RunError) (printed : String) (others : List Output) :
    c.unblocked.run failure printed reported (records.map .log ++ others) =
        c.unblocked.run failure printed
          (reported ++ String.join (records.map fun r => r.line ++ "\n")) others ∧
      c.err.Alike (reported ++ String.join (records.map fun r => r.line ++ "\n")) base := by
  induction records generalizing reported with
  | nil => simpa using halike
  | cons r records ih =>
    obtain ⟨hr, hrecords⟩ := List.forall_mem_cons.1 h
    have hstep : c.unblocked.run failure printed reported
          ((r :: records).map .log ++ others) =
        c.unblocked.run failure printed (reported ++ (r.line ++ "\n"))
          (records.map .log ++ others) := by
      rw [List.map_cons, List.cons_append, run_unblocked_cons, Output.stderr,
        Device.refusal?_of_eq_none (hr reported).1, Output.stdout, String.append_empty]
    have hblock : reported ++ String.join ((r :: records).map fun r => r.line ++ "\n") =
        reported ++ (r.line ++ "\n") ++ String.join (records.map fun r => r.line ++ "\n") := by
      rw [List.map_cons, String.join_cons]
      exact String.append_assoc.symm
    rw [hstep, hblock]
    exact ih hrecords (halike.passOver hr)

/-- Where standard error refuses a record, the process crashes: nothing behind the record is
written. -/
theorem exists_outcome_of_refused_record {c : Console} {t : Transcript}
    {front behind : List Output} {record : LogRecord} {part : String} {cause : IoError}
    (houtputs : t.outputs = front ++ .log record :: behind)
    (htakes : c.err.Takes (front.flatMap Output.errTexts))
    (hrefused : c.err (String.join (front.flatMap Output.errTexts)) (record.line ++ "\n") =
      some (part, cause)) :
    ∃ rest, c.unblocked.outcome t =
      ⟨101, String.join (front.map Output.stdout),
        String.join (front.flatMap Output.errTexts) ++ part ++ rest⟩ := by
  have hne : record.line ++ "\n" ≠ "" := fun h => by simpa using congrArg String.toList h
  rw [← Device.refusal?_of_ne (d := c.err) hne] at hrefused
  obtain ⟨rest, hrest⟩ := c.unblocked.exists_crash (String.join (front.map Output.stdout))
    (String.join (front.flatMap Output.errTexts) ++ part) cause
  refine ⟨rest, ?_⟩
  rw [outcome, houtputs, run_append_of_takes htakes, ← join_errTexts, run_unblocked_cons,
    Output.stderr, hrefused]
  exact hrest _ fun _ => rfl

end Console

end LoxLex
