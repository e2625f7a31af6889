import LoxLex.Proofs.LineEndings
import LoxLex.Proofs.LocationOrder
import LoxLex.Proofs.ShortestDecimals
import LoxLex.Proofs.Unparsing

set_option relaxedAutoImplicit false
set_option autoImplicit false

/-!
# The texts of numbers are read back

The text of a finite number has digits on both sides of a point, behind a minus sign if the sign bit
is set. So without the sign it is one lexeme, and its value is the number itself, as the digits
are those of the shortest decimal that reads back.

## Main definitions

* `LoxLex.Binary64.negate` — the number with the other sign bit.
* `LoxLex.numberToken` — the token that is the text of a number.

## Main results

* `LoxLex.Literal.text_number` — the text of a finite number is positional.
* `LoxLex.Decimal.ofText?_positional` — digits with a point have the value of their decimal.
* `LoxLex.scan_number_text` — the scan of the text of a number.
-/

namespace LoxLex

/-! ## Digits -/

/-- The digits of numbers in general are the digits of the language. -/
private lemma isDigit_of_charIsDigit {ch : Char} (h : ch.isDigit = true) : isDigit ch = true := by
  rw [isDigit_iff]
  simpa [Char.isDigit, UInt32.le_iff_toNat_le] using h

/-- A natural number is written with digits. -/
lemma isDigits_toDigits (n : ℕ) : IsDigits (Nat.toDigits 10 n) :=
  ⟨Nat.toDigits_ne_nil, fun _ hch =>
    isDigit_of_charIsDigit (Nat.isDigit_of_mem_toDigits (by decide) (by decide) hch)⟩

namespace Decimal

variable (d : Decimal)

/-- There are digits before the point. -/
lemma isDigits_wholeDigits : IsDigits d.wholeDigits := isDigits_toDigits _

/-- A natural number in a field of digits is still written with digits. -/
private lemma isDigits_leftpad (k n : ℕ) : IsDigits (List.leftpad k '0' (Nat.toDigits 10 n)) := by
  obtain ⟨hne, hall⟩ := isDigits_toDigits n
  refine ⟨by simp [List.leftpad, hne], fun ch hch => ?_⟩
  rcases List.mem_append.1 hch with hzero | hdigit
  · rw [List.eq_of_mem_replicate hzero]
    decide
  · exact hall ch hdigit

/-- There are digits behind the point. -/
lemma isDigits_fractionDigits : IsDigits d.fractionDigits := by
  obtain ⟨digits, k | k⟩ := d
  · exact isDigits_toDigits 0
  · exact isDigits_leftpad _ _

/-- Zeros in front of a natural number do not change it. -/
private lemma ofDigitChars_leftpad (k n : ℕ) :
    Nat.ofDigitChars 10 (List.leftpad k '0' (Nat.toDigits 10 n)) 0 = n := by
  rw [List.leftpad, Nat.ofDigitChars_append, Nat.ofDigitChars_replicate_zero, Nat.mul_zero,
    Nat.ofDigitChars_ten_toDigits]

/-- A field is as long as it is meant to be if the number fits. -/
private lemma length_leftpad {k n : ℕ} (h : n < 10 ^ (k + 1)) :
    (List.leftpad (k + 1) '0' (Nat.toDigits 10 n)).length = k + 1 := by
  have hle := (Nat.length_toDigits_le_iff (by decide) k.succ_pos).2 h
  rw [List.length_leftpad]
  omega

/-- The digits behind the point are what the division leaves. -/
private lemma ofDigitChars_fractionDigits :
    Nat.ofDigitChars 10 d.fractionDigits 0 * d.den =
      d.num % d.den * 10 ^ d.fractionDigits.length := by
  obtain ⟨digits, k | k⟩ := d
  · show 0 * 1 = digits * Nat.pow 10 k % 1 * 10 ^ 1
    rw [Nat.mod_one, Nat.zero_mul, Nat.zero_mul]
  · have hlength : (fractionDigits ⟨digits, .negSucc k⟩).length = k + 1 :=
      length_leftpad (Nat.mod_lt _ (den_pos ⟨digits, .negSucc k⟩))
    rw [hlength]
    exact congrArg (· * 10 ^ (k + 1)) (ofDigitChars_leftpad _ _)

/-- The digits without the point are the numerator over a power of ten. -/
private lemma ofDigitChars_append_fractionDigits :
    Nat.ofDigitChars 10 (d.wholeDigits ++ d.fractionDigits) 0 * d.den =
      d.num * 10 ^ d.fractionDigits.length := by
  have hwhole : Nat.ofDigitChars 10 d.wholeDigits 0 = d.num / d.den :=
    Nat.ofDigitChars_ten_toDigits
  rw [Nat.ofDigitChars_append, Nat.ofDigitChars_eq_ofDigitChars_zero, hwhole]
  calc (10 ^ d.fractionDigits.length * (d.num / d.den) +
        Nat.ofDigitChars 10 d.fractionDigits 0) * d.den
      = 10 ^ d.fractionDigits.length * (d.num / d.den * d.den) +
          d.num % d.den * 10 ^ d.fractionDigits.length := by
        rw [Nat.add_mul, ofDigitChars_fractionDigits, Nat.mul_assoc]
    _ = (d.num / d.den * d.den + d.num % d.den) * 10 ^ d.fractionDigits.length := by ring
    _ = d.num * 10 ^ d.fractionDigits.length := by rw [Nat.div_add_mod']

/-- Digits with a point have the value of their decimal. -/
lemma ofDigits_eq : Binary64.ofDigits d.wholeDigits d.fractionDigits = .ofRatio d.num d.den := by
  have hpow : 0 < 10 ^ d.fractionDigits.length := Nat.pow_pos (by decide)
  have hsame : Binary64.magnitudeOfRatio
      (Nat.ofDigitChars 10 (d.wholeDigits ++ d.fractionDigits) 0) (10 ^ d.fractionDigits.length) =
        Binary64.magnitudeOfRatio d.num d.den := by
    rw [← Binary64.magnitudeOfRatio_mul_mul _ _ d.den_pos, ofDigitChars_append_fractionDigits,
      Nat.mul_comm _ d.den, Binary64.magnitudeOfRatio_mul_mul _ _ hpow]
  rw [Binary64.ofDigits, Binary64.ofRatio, Binary64.ofRatio, Binary64.mk.injEq]
  exact ⟨rfl, hsame⟩

/-- Digits with a point are read as the value of their decimal. -/
lemma ofText?_positional :
    Binary64.ofText? d.positional = some (.ofRatio d.num d.den) := by
  rw [positional, ofText?_of_point d.isDigits_wholeDigits d.isDigits_fractionDigits, ofDigits_eq]

/-- A text with a point is a text without one if there is nothing behind the point, and the text
itself otherwise. -/
lemma positional_eq :
    d.positional = d.plain ++ if 0 ≤ d.exponent then ['.', '0'] else [] := by
  obtain ⟨digits, k | k⟩ := d
  · rfl
  · simp [positional, plain]

end Decimal

/-! ## Texts of numbers -/

namespace Binary64

/-- The number with the other sign bit. -/
def negate (x : Binary64) : Binary64 := { x with negative := !x.negative }

variable {x : Binary64}

/-- The numbers between the infinities are the finite ones. -/
private lemma lt_of_isFinite (h : x.isFinite = true) : x.magnitude < infinityMagnitude :=
  of_decide_eq_true h

/-- A number is whole just if its shortest decimal has nothing behind the point. -/
private lemma isWhole_iff (h : x.isFinite = true) :
    x.isWhole = true ↔ 0 ≤ (Decimal.shortest x.magnitude).exponent := by
  rw [Decimal.shortest_exponent_nonneg_iff (lt_of_isFinite h), isWhole, beq_iff_eq,
    Nat.dvd_iff_mod_eq_zero]

end Binary64

/-- The text of a finite number is positional, also if the number is whole. -/
lemma Literal.text_number {x : Binary64} (h : x.isFinite = true) :
    (Literal.number x).text =
      String.ofList (x.signed (Decimal.shortest x.magnitude).positional) := by
  have hlt := x.lt_of_isFinite h
  have htext : x.text = x.signed (Decimal.shortest x.magnitude).plain := by
    rw [Binary64.text, Binary64.textWith, if_neg, if_neg]
    · simpa [Binary64.isInfinite] using hlt.ne
    · simpa [Binary64.isNaN] using hlt.le
  have happend : ∀ a b : List Char, x.signed a ++ b = x.signed (a ++ b) := by
    intro a b
    unfold Binary64.signed
    split <;> rfl
  rw [Literal.text, htext, Decimal.positional_eq, happend]
  simp only [h, true_and, Binary64.isWhole_iff h]

/-- The text of a finite number without a sign is a number of the language, with the finite number
as its value. -/
lemma Literal.isLexeme_text_number {x : Binary64} (h : x.isFinite = true)
    (hsign : x.negative = false) :
    IsLexeme (.literal (.number x)) (Literal.number x).text.toList := by
  let d := Decimal.shortest x.magnitude
  have htext : (Literal.number x).text.toList = d.positional := by
    rw [text_number h, Binary64.signed, hsign, String.toList_ofList]
    rfl
  have hvalue : Binary64.ofRatio d.num d.den = x := by
    have hreads : d.magnitude = x.magnitude := Decimal.shortest_magnitude (x.lt_of_isFinite h)
    obtain ⟨negative, magnitude, hlt⟩ := x
    rw [Binary64.ofRatio, Binary64.mk.injEq]
    exact ⟨hsign.symm, hreads⟩
  rw [htext]
  refine .number (.inr ⟨_, _, d.isDigits_wholeDigits, d.isDigits_fractionDigits, rfl⟩) ?_
  rw [d.ofText?_positional, hvalue]

/-! ## Scanning the texts -/

/-- The token that is the text of a number in the first line. -/
def numberToken (x : Binary64) (col : ℕ) : Token where
  kind := .literal (.number x)
  lexeme := (Literal.number x).text
  span := ⟨⟨1, col⟩, ⟨1, col + (Literal.number x).text.length⟩⟩

section Scans

variable {x : Binary64} (h : x.isFinite = true)

include h

/-- The text of a finite number without a sign is one piece. -/
private lemma splits_number (hsign : x.negative = false) :
    Splits (Literal.number x).text.toList
      [⟨.lexeme (.literal (.number x)), (Literal.number x).text.toList⟩] := by
  have hlead := Leads.lexeme (Literal.isLexeme_text_number h hsign) (Kind.endsBefore_nil _ _)
  simpa using Splits.cons hlead .nil

/-- The tokens of this piece, if it is the last one of the first line. -/
private lemma ofItems_place_number (hsign : x.negative = false) (col : ℕ) :
    Scan.ofItems
        (place ⟨1, col⟩ [⟨.lexeme (.literal (.number x)), (Literal.number x).text.toList⟩]) =
      ⟨[numberToken x col,
        ⟨.endOfInput, "", .empty ⟨1, col + (Literal.number x).text.length⟩⟩], []⟩ := by
  have hline := (Literal.isLexeme_text_number h hsign).newline_not_mem (by simp [Kind.frontClass])
  simp [place_cons, Piece.item?, Location.after_of_not_mem hline, Scan.ofItems, Item.token?,
    Item.error?, endItem, numberToken, String.length_toList]

/-- The scan of the text of a finite number without a sign. -/
lemma scan_number_of_unsigned (hsign : x.negative = false) :
    scan (Literal.number x).text =
      ⟨[numberToken x 1,
        ⟨.endOfInput, "", .empty ⟨1, 1 + (Literal.number x).text.length⟩⟩], []⟩ := by
  rw [scan_of_splits (splits_number h hsign)]
  exact ofItems_place_number h hsign 1

/-- The text of a number with a sign is a minus sign and the text of the number without it. -/
lemma Literal.text_of_negative (hsign : x.negative = true) :
    (Literal.number x).text = "-" ++ (Literal.number x.negate).text := by
  have hnegate : x.negate.isFinite = true := h
  rw [text_number h, text_number hnegate, Binary64.signed, Binary64.signed, Binary64.negate, hsign]
  exact @String.ofList_append ['-'] _

/-- The scan of the text of a finite number with a sign. -/
lemma scan_number_of_negative (hsign : x.negative = true) :
    scan (Literal.number x).text =
      ⟨[⟨.operator .minus, "-", ⟨⟨1, 1⟩, ⟨1, 2⟩⟩⟩, numberToken x.negate 2,
        ⟨.endOfInput, "", .empty ⟨1, 2 + (Literal.number x.negate).text.length⟩⟩], []⟩ := by
  have hnegate : x.negate.isFinite = true := h
  have hplain : x.negate.negative = false := by rw [Binary64.negate, hsign]; rfl
  have hminus (rest : List Char) : Leads ⟨.lexeme (.operator .minus), ['-']⟩ rest :=
    .lexeme (.operator .minus) ⟨fun hlonger => absurd rfl hlonger, fun hslash => by cases hslash⟩
  have hsplits : Splits (Literal.number x).text.toList
      [⟨.lexeme (.operator .minus), ['-']⟩,
        ⟨.lexeme (.literal (.number x.negate)), (Literal.number x.negate).text.toList⟩] := by
    rw [Literal.text_of_negative h hsign, String.toList_append]
    exact .cons (hminus _) (splits_number hnegate hplain)
  have hnumber := ofItems_place_number hnegate hplain 2
  rw [scan_of_splits hsplits, place_cons, show Location.start.after ['-'] = ⟨1, 2⟩ from rfl]
  rw [Scan.ofItems, Scan.mk.injEq] at hnumber
  rw [Scan.ofItems, List.filterMap_append, List.filterMap_append, hnumber.1, hnumber.2]
  rfl

end Scans

/-- **The text of a number is read back.** Without a sign, the text of a finite number has digits on
both sides of a point and nothing else. Its scan has no errors, and but for the end it has one token
only: the whole text, with the number itself as the value, bit for bit. So in a dump the text stands
twice behind the name, and the values that were read have this text again. With a sign, the text is
a minus sign and the text of the number without it, and its scan has the tokens of the two.

**Proof sketch.** The digits are those of a decimal that reads back as the number, and they end
before the point just if the number is whole, where a point and a zero are added. Digits with a
point are one lexeme, whose value is that of the decimal. -/
theorem scan_number_text {x : Binary64} (h : x.isFinite = true) :
    (x.negative = false →
      (∃ whole fraction, IsDigits whole ∧ IsDigits fraction ∧
        (Literal.number x).text = String.ofList (whole ++ '.' :: fraction)) ∧
      scan (Literal.number x).text =
        ⟨[numberToken x 1,
          ⟨.endOfInput, "", .empty ⟨1, 1 + (Literal.number x).text.length⟩⟩], []⟩ ∧
      (scan (Literal.number x).text).tokens.map Token.canonical =
        ["NUMBER " ++ (Literal.number x).text ++ " " ++ (Literal.number x).text, "EOF  null"] ∧
      ((scan (Literal.number x).text).tokens.filterMap Token.literal?).map Literal.text =
        [(Literal.number x).text]) ∧
    (x.negative = true →
      (Literal.number x).text = "-" ++ (Literal.number x.negate).text ∧
      scan (Literal.number x).text =
        ⟨[⟨.operator .minus, "-", ⟨⟨1, 1⟩, ⟨1, 2⟩⟩⟩, numberToken x.negate 2,
          ⟨.endOfInput, "", .empty ⟨1, 2 + (Literal.number x.negate).text.length⟩⟩], []⟩) := by
  refine ⟨fun hsign => ?_, fun hsign => ?_⟩
  · have hscan := scan_number_of_unsigned h hsign
    refine ⟨⟨_, _, Decimal.isDigits_wholeDigits (.shortest x.magnitude),
      Decimal.isDigits_fractionDigits (.shortest x.magnitude), ?_⟩, hscan, ?_, ?_⟩
    · rw [Literal.text_number h, Binary64.signed, hsign]
      rfl
    · rw [hscan]
      rfl
    · rw [hscan]
      rfl
  · exact ⟨Literal.text_of_negative h hsign, scan_number_of_negative h hsign⟩

/-- A whole number of 22 digits with a sign, which the scan reads by itself, and one tenth. -/
theorem scan_number_text_of_large :
    scan "-1000000000000000000000.0" =
        ⟨[⟨.operator .minus, "-", ⟨⟨1, 1⟩, ⟨1, 2⟩⟩⟩,
          numberToken ⟨false, 0x444B1AE4D6E2EF50, by decide⟩ 2,
          ⟨.endOfInput, "", .empty ⟨1, 26⟩⟩], []⟩ ∧
      scan "0.1" =
        ⟨[numberToken ⟨false, 0x3FB999999999999A, by decide⟩ 1,
          ⟨.endOfInput, "", .empty ⟨1, 4⟩⟩], []⟩ := by
  have hlarge : (Literal.number ⟨false, 0x444B1AE4D6E2EF50, by decide⟩).text =
      "1000000000000000000000.0" := by decide +kernel
  have htenth : (Literal.number ⟨false, 0x3FB999999999999A, by decide⟩).text = "0.1" := by
    decide +kernel
  refine ⟨?_, ?_⟩
  · obtain ⟨htext, hscan⟩ := (scan_number_text (x := ⟨true, 0x444B1AE4D6E2EF50, by decide⟩)
      (by decide)).2 rfl
    have hnegate : Binary64.negate ⟨true, 0x444B1AE4D6E2EF50, by decide⟩ =
      ⟨false, 0x444B1AE4D6E2EF50, by decide⟩ := rfl
    rw [hnegate, hlarge] at htext hscan
    rw [htext] at hscan
    exact hscan
  · obtain ⟨-, hscan, -⟩ := (scan_number_text (x := ⟨false, 0x3FB999999999999A, by decide⟩)
      (by decide)).1 rfl
    rw [htenth] at hscan
    exact hscan

end LoxLex
