import LoxLex.Proofs.Exhaustion
import LoxLex.Session

set_option relaxedAutoImplicit false
set_option autoImplicit false

/-!
# The log of a scan

A token is recorded where it is made, deep inside a call of the scanner; an error is recorded by
whoever collects the items. Still the log of a scan can be read off the items alone: there is one
record for each of them, in their order, and the summary behind the last one. Blanks, comments and
strings that turn out to be open leave no record of their own.

## Main definitions

* `LoxLex.Item.record` — the record of an item.
* `LoxLex.Item.traced?` — the same for tokens only.
* `LoxLex.Scan.summary` — the record behind all items.
* `LoxLex.scanRecords`, `LoxLex.shownRecords` — the records of a text, and those that are shown.
* `LoxLex.recordOutputs` — what is written of them.

## Main results

* `LoxLex.Cursor.nextItemLogged_records` — what a call of a scanner records.
* `LoxLex.Scanner.takeLogged_records`, `LoxLex.Scanner.collectLogged_records` — what several calls
  record.
* `LoxLex.scan_leaves_records` — the log of a scan, and of any number of calls.
-/

namespace LoxLex

namespace Item

/-- The record of an item. -/
def record : Item → LogRecord
  | token t => ⟨.trace, toString t⟩
  | error e => ⟨.debug, e.message⟩

/-- The record of an item that is a token. -/
def traced? (item : Item) : Option LogRecord :=
  item.token?.map fun t => ⟨.trace, toString t⟩

end Item

/-- The record behind the items of a scan: how many of them are tokens and how many errors. -/
def Scan.summary (r : Scan) : LogRecord :=
  ⟨.debug, "scanned " ++ toString r.tokens.length ++ " tokens with " ++ toString r.errors.length ++
    " errors"⟩

/-! ## One call -/

namespace Cursor

/-- A call records the token that it makes, and nothing if it makes none.

**Proof sketch.** Induction along the blanks and comments that are passed over. Each of the ends of
the loop makes one token, but for the one at an error, which is reached before a token is made. -/
lemma nextItemLogged_records (c : Cursor) :
    c.nextItemLogged.records = c.nextItem.1.traced?.toList := by
  fun_induction nextItemLogged c with
  | case1 c d hstep ih => rw [ih, nextItem_of_skip hstep]
  | case2 c kind d hstep | case3 c e d hstep | case4 c hstep =>
    rw [nextItem]
    split <;> simp_all
    rfl

end Cursor

namespace Scanner

/-- The same for a call that may come behind the end, where it records nothing. -/
lemma nextLogged_records (s : Scanner) :
    s.nextLogged.records = (s.next.1.bind Item.traced?).toList := by
  unfold nextLogged next
  split
  · rfl
  · rw [Option.bind_some, ← Cursor.nextItemLogged_records]
    exact List.append_nil _

/-! ## Several calls -/

/-- Calls that only take items record the tokens among them. -/
lemma takeLogged_records (n : Nat) (s : Scanner) :
    (s.takeLogged n).records = (s.take n).1.filterMap Item.traced? := by
  induction n generalizing s with
  | zero => rfl
  | succ n ih =>
    simp only [takeLogged, take, bind, nextLogged_value, nextLogged_records]
    cases s.next with
    | mk found after =>
      cases found with
      | none => rfl
      | some item =>
        simp only [pure, ih, List.append_nil, Option.bind_some, List.filterMap_cons]
        cases item.traced? <;> rfl

/-- Calls that collect items record all of them. -/
lemma collectLogged_records (n : Nat) (s : Scanner) :
    (s.collectLogged n).records = (s.take n).1.map Item.record := by
  induction n generalizing s with
  | zero => rfl
  | succ n ih =>
    simp only [collectLogged, take, bind, nextLogged_value, nextLogged_records]
    cases s.next with
    | mk found after =>
      cases found with
      | none => rfl
      | some item =>
        cases item <;>
          simp [pure, ih, Item.traced?, Item.token?, Item.record, Logged.note]

end Scanner

/-! ## Scans -/

namespace Verbosity

/-- Where records for debugging are not shown, those of the least severity are not. -/
lemma admits_trace_eq_false {v : Verbosity} (h : v.admits .debug = false) :
    v.admits .trace = false := by
  cases v with
  | off => rfl
  | upTo least =>
    have hdebug : ¬ 4 ≤ least.rank := of_decide_eq_false h
    exact decide_eq_false fun htrace : 5 ≤ least.rank => hdebug (by omega)

/-- The whole log is shown if the least severity is. -/
lemma shown_trace (records : List LogRecord) : (upTo .trace).shown records = records :=
  List.filter_eq_self.2 fun r _ => by cases r.severity <;> rfl

/-- Of the records of items, those for debugging belong to the errors. -/
lemma shown_debug_map_record (found : List Item) :
    (upTo .debug).shown (found.map Item.record) =
      (Scan.ofItems found).errors.map fun e => ⟨.debug, e.message⟩ := by
  induction found with
  | nil => rfl
  | cons item found ih =>
    cases item with
    | token t => exact ih
    | error e => exact congrArg (_ :: ·) ih

end Verbosity

/-! ## The log of a text -/

/-- The records of a text: one for each item, and then the summary. -/
def scanRecords (source : String) : List LogRecord :=
  (items source).map Item.record ++ [(scan source).summary]

/-- Those of them that a verbosity admits. -/
def shownRecords (v : Verbosity) (source : String) : List LogRecord :=
  (scanRecords source).filter fun r => v.admits r.severity

/-- The log of a scan has the records of the text. -/
lemma scanLogged_records (source : String) : (scanLogged source).records = scanRecords source := by
  have hcollect := (Scanner.ofString source).collectLogged_records (source.toList.length + 1)
  have hsummary : (scan source).summary = (scanLogged source).value.summary := by
    rw [scanLogged_value]
  rw [scanRecords, hsummary]
  exact congrArg (· ++ _) hcollect

/-- Those that the verbosity admits are shown. -/
lemma shown_scanLogged (v : Verbosity) (source : String) :
    v.shown (scanLogged source).records = shownRecords v source := by
  rw [scanLogged_records]
  rfl

/-- What is written of the log of a text: a record on standard error for each one that the verbosity
admits. -/
def recordOutputs (settings : Settings) (source : String) : List Output :=
  (shownRecords settings.verbosity source).map .log

/-- The program writes this of a log. -/
lemma logOutputs_scanLogged (settings : Settings) (source : String) :
    settings.logOutputs (scanLogged source).records = recordOutputs settings source := by
  rw [Settings.logOutputs, shown_scanLogged]
  rfl

/-- The records of a text are for debugging, or even more verbose. -/
lemma shownRecords_eq_nil {v : Verbosity} (h : v.admits .debug = false) (source : String) :
    shownRecords v source = [] := by
  have htrace := Verbosity.admits_trace_eq_false h
  refine List.filter_eq_nil_iff.2 fun r hr => ?_
  rcases List.mem_append.1 hr with hitem | hsummary
  · obtain ⟨item, -, rfl⟩ := List.mem_map.1 hitem
    cases item <;> simp [Item.record, htrace, h]
  · obtain rfl := List.mem_singleton.1 hsummary
    simp [Scan.summary, h]

/-- **The log of a scan traces its items.** Whatever the verbosity, the records that are shown are
those that it admits among the following: for each item of the text, in their order, one record of
the least severity with the text of a token, or one for debugging with the message of an error; and
one for debugging behind them that gives the numbers of tokens and of errors. So the whole log shows
all of these, and below the level for debugging nothing is shown. Whoever takes items from a
scanner, and not the scan of the text, finds the first items of the text and leaves the records of
the tokens among them. The end of the text is recorded as a token, when it is yielded; from then on
nothing is recorded, however often the scanner is called.

**Proof sketch.** A call of a scanner makes at most one token, which is the item that it yields. By
induction on the number of calls the records are those of the items. The scan of a text makes enough
calls for all items of the text, and the end is the last one of them. -/
theorem scan_leaves_records (source : String) :
    (scanLogged source).value = scan source ∧
    (∀ v : Verbosity, v.shown (scanLogged source).records =
      ((items source).map Item.record ++ [(scan source).summary]).filter
        fun r => v.admits r.severity) ∧
    (Verbosity.upTo .trace).shown (scanLogged source).records =
      (items source).map Item.record ++ [(scan source).summary] ∧
    (Verbosity.upTo .debug).shown (scanLogged source).records =
      ((scan source).errors.map fun e => ⟨.debug, e.message⟩) ++ [(scan source).summary] ∧
    (∀ v : Verbosity, v.admits .debug = false → v.shown (scanLogged source).records = []) ∧
    (∀ n, ((Scanner.ofString source).takeLogged n).value.1 = (items source).take n ∧
      ((Scanner.ofString source).takeLogged n).records =
        ((items source).take n).filterMap Item.traced?) ∧
    ∃ front l, items source = front ++ [endItem l] ∧ (∀ item ∈ front, item.isEnd = false) ∧
      ∀ n, front.length < n →
        ((Scanner.ofString source).takeLogged n).records =
          front.filterMap Item.traced? ++
            [⟨.trace, toString (⟨.endOfInput, "", .empty l⟩ : Token)⟩] ∧
        ∀ m, (((Scanner.ofString source).takeLogged n).value.2.takeLogged m).records = [] := by
  have hexhausts := exhausts_items source
  obtain ⟨front, l, hitems, hfront⟩ := hexhausts.ending
  obtain ⟨last, htake, hmore⟩ := hexhausts.nothing_more
  have hrecords := scanLogged_records source
  refine ⟨scanLogged_value source, fun v => shown_scanLogged v source,
    by rw [Verbosity.shown_trace, hrecords]; rfl, ?_, fun v hv => ?_, fun n => ?_,
    front, l, hitems, hfront, fun n hn => ?_⟩
  · rw [hrecords, scanRecords, Verbosity.shown, List.filter_append, ← Verbosity.shown,
      Verbosity.shown_debug_map_record]
    rfl
  · rw [shown_scanLogged, shownRecords_eq_nil hv]
  · rw [Scanner.takeLogged_value, Scanner.takeLogged_records, hexhausts.take_eq]
    exact ⟨rfl, rfl⟩
  · have hall : (items source).length ≤ n := by rw [hitems, List.length_append]; exact hn
    rw [Scanner.takeLogged_value, Scanner.takeLogged_records, htake n hall]
    refine ⟨by rw [hitems, List.filterMap_append]; rfl, fun m => ?_⟩
    have hfinished : last.finished = true :=
      Scanner.next_eq_none_iff.1 (congrArg Prod.fst (hmore 0))
    rw [Scanner.takeLogged_records, Scanner.take_of_finished hfinished]
    rfl

/-- The open string is found by the second call, which records nothing. -/
example : ((Scanner.ofString "x \"y").takeLogged 2).records =
    [⟨.trace, "<IDENTIFIER \"x\" @ 1:1-1:2>"⟩] := by
  decide +kernel

end LoxLex
