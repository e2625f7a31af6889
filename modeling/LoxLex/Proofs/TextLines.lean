import LoxLex.Encoding
import Mathlib.Tactic.Lemma

set_option relaxedAutoImplicit false
set_option autoImplicit false

/-!
# The lines of a text

A text is cut into lines behind its newlines. Its encoding is cut at the same places, since no
other character has the byte of the newline in its encoding; so what is read line by line from the
bytes of a text are the lines of the text.

## Main definitions

* `LoxLex.encodeText` — the bytes that encode a text.
* `LoxLex.textLines` — the lines of a text, each with its newline.

## Main results

* `LoxLex.join_textLines` — the lines make up the text.
* `LoxLex.endsLine_of_textLines` — only the last one may lack its newline.
* `LoxLex.readLines_encodeText` — the lines that are read from the bytes of a text.
-/

namespace LoxLex

/-! ## Lines -/

/-- The characters cut behind each newline. -/
def cutLines : List Char → List (List Char)
  | [] => []
  | ch :: text =>
    if ch = '\n' then [ch] :: cutLines text
    else
      match cutLines text with
      | [] => [[ch]]
      | line :: lines => (ch :: line) :: lines

/-- The lines of a text, each with its newline. The last one may lack it. -/
def textLines (text : String) : List String := (cutLines text.toList).map String.ofList

/-- A newline ends the first line. -/
lemma cutLines_newline (text : List Char) : cutLines ('\n' :: text) = ['\n'] :: cutLines text :=
  if_pos rfl

/-- Any other character belongs to the line behind it, or is a line if there is none. -/
lemma cutLines_cons {ch : Char} (h : ch ≠ '\n') (text : List Char) :
    cutLines (ch :: text) =
      match cutLines text with
      | [] => [[ch]]
      | line :: lines => (ch :: line) :: lines :=
  if_neg h

/-- Nothing is lost by cutting. -/
lemma cutLines_flatten (text : List Char) : (cutLines text).flatten = text := by
  induction text with
  | nil => rfl
  | cons ch text ih =>
    by_cases h : ch = '\n'
    · rw [h, cutLines_newline, List.flatten_cons, ih]
      rfl
    · rw [cutLines_cons h]
      cases hlines : cutLines text with
      | nil =>
        rw [hlines] at ih
        rw [← ih]
        rfl
      | cons line lines =>
        rw [hlines, List.flatten_cons] at ih
        rw [List.flatten_cons, List.cons_append, ih]

/-- The lines of a text make up the text. -/
theorem join_textLines (text : String) : String.join (textLines text) = text := by
  rw [← String.toList_inj, String.toList_join, textLines, List.flatMap_map]
  simpa [List.flatMap_def] using cutLines_flatten text.toList

example : textLines "a\n\nb" = ["a\n", "\n", "b"] := by decide

/-- A line that goes up to its newline, the only one in it. -/
def EndsLine (line : String) : Prop := ∃ body, '\n' ∉ body ∧ line.toList = body ++ ['\n']

/-- A line with other lines behind it has its newline.

**Proof sketch.** Induction on the text. A newline is the whole first line. Any other character is
put in front of the first line of the text behind it, which has lines behind it as before. -/
lemma cutLines_front {text : List Char} {front behind : List (List Char)}
    (h : cutLines text = front ++ behind) (hbehind : behind ≠ []) :
    ∀ line ∈ front, ∃ body, '\n' ∉ body ∧ line = body ++ ['\n'] := by
  induction text generalizing front with
  | nil =>
    have := (List.append_eq_nil_iff.1 h.symm).2
    exact absurd this hbehind
  | cons ch text ih =>
    cases front with
    | nil => simp
    | cons first front =>
      by_cases hch : ch = '\n'
      · rw [hch, cutLines_newline, List.cons_append, List.cons.injEq] at h
        obtain ⟨rfl, h⟩ := h
        refine List.forall_mem_cons.2 ⟨⟨[], by simp⟩, ih h⟩
      · rw [cutLines_cons hch] at h
        cases hlines : cutLines text with
        | nil =>
          rw [hlines, List.cons_append, List.cons.injEq] at h
          have := (List.append_eq_nil_iff.1 h.2.symm).2
          exact absurd this hbehind
        | cons line lines =>
          rw [hlines, List.cons_append, List.cons.injEq] at h
          obtain ⟨rfl, rfl⟩ := h
          have hlines : cutLines text = (line :: front) ++ behind := hlines
          obtain ⟨⟨body, hbody, rfl⟩, hfront⟩ := List.forall_mem_cons.1 (ih hlines)
          refine List.forall_mem_cons.2 ⟨⟨ch :: body, ?_, rfl⟩, hfront⟩
          simpa [hbody] using Ne.symm hch

/-- A line with other lines behind it has its newline. -/
theorem endsLine_of_textLines {text : String} {front behind : List String}
    (h : textLines text = front ++ behind) (hbehind : behind ≠ []) :
    ∀ line ∈ front, EndsLine line := by
  obtain ⟨cutFront, cutBehind, hcut, rfl, rfl⟩ := List.map_eq_append_iff.1 h
  intro line hline
  obtain ⟨chars, hchars, rfl⟩ := List.mem_map.1 hline
  obtain ⟨body, hbody, rfl⟩ := cutLines_front hcut (by simpa using hbehind) chars hchars
  exact ⟨body, hbody, String.toList_ofList⟩

/-! ## Bytes -/

/-- The bytes that encode characters in UTF-8. -/
def encodeChars (text : List Char) : List UInt8 := text.flatMap String.utf8EncodeChar

/-- The bytes that encode a text in UTF-8. -/
def encodeText (text : String) : List UInt8 := text.toUTF8.data.toList

/-- A text is encoded character by character. -/
lemma encodeText_eq (text : String) : encodeText text = encodeChars text.toList := by
  rw [encodeText, String.toUTF8_eq_toByteArray, ← String.utf8Encode_toList, List.utf8Encode,
    List.toList_data_toByteArray, encodeChars]

/-- Texts are encoded one after the other. -/
lemma encodeText_join (texts : List String) :
    encodeText (String.join texts) = (texts.map encodeText).flatten := by
  rw [encodeText_eq, String.toList_join, encodeChars, List.flatMap_assoc, List.flatMap_def]
  exact congrArg List.flatten (List.map_congr_left fun text _ => (encodeText_eq text).symm)

/-- The encoding of characters is decoded to the text that consists of them. -/
lemma decodeText_encodeChars (text : List Char) :
    decodeText (encodeChars text) = .ok (String.ofList text) := by
  have hbytes : (⟨(encodeChars text).toArray⟩ : ByteArray) = (String.ofList text).toByteArray := by
    rw [String.toByteArray_ofList, List.utf8Encode, ← encodeChars]
    refine ByteArray.ext (Array.toList_inj.1 ?_)
    rw [List.toList_data_toByteArray]
  rw [decodeText, hbytes, String.fromUTF8?, dif_pos (String.ofList text).isValidUTF8]
  rfl

/-- The encoding of a text is decoded to it. -/
lemma decodeText_encodeText (text : String) : decodeText (encodeText text) = .ok text := by
  rw [encodeText_eq, decodeText_encodeChars, String.ofList_toList]

/-- Bytes that do not encode a text cannot be read. -/
lemma decodeText_of_unreadable {bytes : List UInt8} (h : ∀ text, encodeText text ≠ bytes) :
    decodeText bytes = .error .invalidEncoding := by
  rw [decodeText]
  cases hdecode : String.fromUTF8? ⟨bytes.toArray⟩ with
  | none => rfl
  | some text =>
    rw [String.fromUTF8?] at hdecode
    split at hdecode
    · have htext := Option.some.inj hdecode
      refine absurd ?_ (h text)
      rw [← htext, encodeText]
      rfl
    · cases hdecode

/-- Only the newline has its byte in its encoding: the bytes of a longer encoding are all large. -/
lemma newline_of_mem_utf8EncodeChar {ch : Char} (h : 10 ∈ String.utf8EncodeChar ch) :
    ch = '\n' := by
  have byte : ∀ n, 10 = UInt8.ofNat n ↔ n % 256 = 10 := by
    intro n
    rw [← UInt8.toNat_inj, UInt8.toNat_ofNat']
    exact eq_comm
  rw [String.utf8EncodeChar] at h
  split at h
  · next hsmall =>
    rw [List.mem_singleton, byte] at h
    refine Char.ext (UInt32.toNat_inj.1 ?_)
    show ch.val.toNat = 10
    omega
  · split at h
    · simp only [List.mem_cons, List.not_mem_nil, or_false, byte] at h
      omega
    · split at h
      all_goals
        simp only [List.mem_cons, List.not_mem_nil, or_false, byte] at h
        omega

/-- Bytes without a newline are put in front of the first line behind them. -/
lemma splitLines_append {run : List UInt8} (bytes : List UInt8) (hne : run ≠ []) (h : 10 ∉ run) :
    splitLines (run ++ bytes) =
      match splitLines bytes with
      | [] => [run]
      | line :: lines => (run ++ line) :: lines := by
  induction run with
  | nil => exact absurd rfl hne
  | cons b run ih =>
    obtain ⟨hb, hrun⟩ : ¬ 10 = b ∧ 10 ∉ run := by simpa using h
    rw [List.cons_append, splitLines, if_neg (Ne.symm hb)]
    cases run with
    | nil => rfl
    | cons b' run =>
      rw [ih (List.cons_ne_nil b' run) hrun]
      cases splitLines bytes <;> rfl

/-- The bytes of a text are cut at the same places as the text. -/
lemma splitLines_encodeChars (text : List Char) :
    splitLines (encodeChars text) = (cutLines text).map encodeChars := by
  induction text with
  | nil => rfl
  | cons ch text ih =>
    have hcons : ∀ line, encodeChars (ch :: line) = String.utf8EncodeChar ch ++ encodeChars line :=
      fun line => List.flatMap_cons
    by_cases hch : ch = '\n'
    · subst hch
      have hbyte : String.utf8EncodeChar '\n' = [10] := by decide
      rw [hcons, cutLines_newline, hbyte, List.singleton_append, splitLines, if_pos rfl, ih]
      rfl
    · rw [hcons, splitLines_append _ String.utf8EncodeChar_ne_nil
        (fun h => hch (newline_of_mem_utf8EncodeChar h)), ih, cutLines_cons hch]
      cases cutLines text with
      | nil => simp [encodeChars]
      | cons line lines => simp [hcons]

/-- The lines that are read from the bytes of a text are the lines of the text. -/
theorem readLines_encodeText (text : String) :
    readLines (encodeText text) = (textLines text).map .ok := by
  rw [readLines, encodeText_eq, splitLines_encodeChars, textLines, List.map_map, List.map_map]
  exact List.map_congr_left fun line _ => decodeText_encodeChars line

end LoxLex
