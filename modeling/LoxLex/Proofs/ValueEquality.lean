import LoxLex.Proofs.Concatenation

set_option relaxedAutoImplicit false
set_option autoImplicit false

/-!
# Equality by value on scans

Scans are compared with their numbers taken numerically. For numbers in general this is neither
reflexive, as what is no number equals nothing, nor identity, as the two zeros are equal. But the
texts of the language write their numbers without a sign, and each such text stands for a number,
be it too large for a finite one or so small that it becomes zero. For these numbers equality by
value is identity, and hence it is so for tokens and scans.

## Main definitions

* `LoxLex.Binary64.IsUnsigned` — a number with its sign bit clear.
* `LoxLex.Kind.HasUnsigned` — the literal of a kind is no number, or such a number.

## Main results

* `LoxLex.Binary64.toBits_inj` — a number is determined by its word in the interchange format.
* `LoxLex.Binary64.IsUnsigned.of_ofText?` — the number of a decimal text is unsigned.
* `LoxLex.Token.hasUnsigned` — so are the numbers in the tokens of a scan.
* `LoxLex.scan_equal_iff` — two scans are equal by value just if they are the same.
-/

namespace LoxLex

/-! ## Numbers -/

namespace Binary64

/-- A number is determined by its word in the interchange format. -/
lemma toBits_inj {x y : Binary64} : x.toBits = y.toBits ↔ x = y := by
  refine ⟨fun h => ?_, fun h => h ▸ rfl⟩
  obtain ⟨sign, magnitude, hlt⟩ := x
  obtain ⟨sign', magnitude', hlt'⟩ := y
  have hword := congrArg UInt64.toNat h
  have hsmall : ∀ b : Bool, ∀ m, m < 0x8000000000000000 →
      (if b then 0x8000000000000000 + m else m) < 2 ^ 64 := by
    intro b m hm
    cases b <;> simp only [Bool.false_eq_true, if_true, if_false] <;> omega
  rw [toBits, toBits, UInt64.toNat_ofNat_of_lt' (hsmall sign magnitude hlt),
    UInt64.toNat_ofNat_of_lt' (hsmall sign' magnitude' hlt')] at hword
  -- the sign bit tells the words with a sign from those without
  obtain ⟨rfl, rfl⟩ : sign = sign' ∧ magnitude = magnitude' := by
    cases sign <;> cases sign' <;>
      simp only [Bool.false_eq_true, if_true, if_false, true_and, reduceCtorEq, false_and]
        at hword ⊢ <;> omega
  rfl

/-- A number, finite or not, with its sign bit clear. -/
structure IsUnsigned (x : Binary64) : Prop where
  /-- It is a number. -/
  isNaN : x.isNaN = false
  /-- Its sign bit is clear. -/
  negative : x.negative = false

namespace IsUnsigned

variable {x y : Binary64}

/-- The number of a quotient is unsigned. -/
lemma of_ofRatio (num den : Nat) : (ofRatio num den).IsUnsigned :=
  ⟨ofRatio_not_isNaN num den, rfl⟩

/-- So is the number of a decimal text. -/
lemma of_ofText? {text : List Char} (h : ofText? text = some x) : x.IsUnsigned := by
  unfold ofText? at h
  dsimp only at h
  split at h
  · cases h
  · split at h
    · cases h
      exact of_ofRatio _ _
    · split at h
      · cases h
        exact of_ofRatio _ _
      · cases h

/-- Without a sign numeric equality is identity: there is but one zero. -/
lemma equal_iff (hx : x.IsUnsigned) (hy : y.IsUnsigned) : x.equal y = true ↔ x = y := by
  have hzero : x.magnitude = 0 → y.magnitude = 0 → x = y := by
    obtain ⟨sign, magnitude, hlt⟩ := x
    obtain ⟨sign', magnitude', hlt'⟩ := y
    rintro rfl rfl
    obtain rfl : sign = false := hx.negative
    obtain rfl : sign' = false := hy.negative
    rfl
  simp only [equal, hx.isNaN, hy.isNaN, Bool.not_false, Bool.true_and, Bool.or_eq_true,
    Bool.and_eq_true, beq_iff_eq]
  exact ⟨fun h => h.elim id fun hboth => hzero hboth.1 hboth.2, .inl⟩

end IsUnsigned

end Binary64

/-! ## Tokens -/

/-- If the value of a literal is a number, it is an unsigned one. -/
def Kind.HasUnsigned (kind : Kind) : Prop :=
  ∀ x, kind = .literal (.number x) → x.IsUnsigned

/-- The value of a number lexeme is unsigned. -/
lemma IsLexeme.hasUnsigned {kind : Kind} {text : List Char} (h : IsLexeme kind text) :
    kind.HasUnsigned := by
  rintro x rfl
  cases h with
  | number _ hvalue => exact .of_ofText? hvalue

/-- The numbers in the tokens of a scan are unsigned. -/
lemma Token.hasUnsigned {source : String} {t : Token} (h : t ∈ (scan source).tokens) :
    t.kind.HasUnsigned := by
  rcases wellFormed_of_mem_tokens h with hlexeme | ⟨hend, -⟩
  · exact hlexeme.hasUnsigned
  · rw [hend]
    rintro x ⟨⟩

/-- Kinds with unsigned numbers are equal by value just if they are the same. -/
lemma Kind.HasUnsigned.equal_iff {j k : Kind} (hj : j.HasUnsigned) (hk : k.HasUnsigned) :
    j.equal k = true ↔ j = k := by
  cases j with
  | literal a =>
    cases k with
    | literal b =>
      cases a with
      | string a => cases b <;> simp [Kind.equal, Literal.equal]
      | number x =>
        cases b with
        | string b => simp [Kind.equal, Literal.equal]
        | number y => simp [Kind.equal, Literal.equal, (hj x rfl).equal_iff (hk y rfl)]
    | _ => simp [Kind.equal]
  | _ => cases k <;> simp [Kind.equal]

/-- So are tokens. -/
lemma Token.equal_iff {s t : Token} (hs : s.kind.HasUnsigned) (ht : t.kind.HasUnsigned) :
    s.equal t = true ↔ s = t := by
  cases s
  cases t
  simp [Token.equal, hs.equal_iff ht, and_assoc]

/-! ## Scans -/

/-- Lists are compared element by element, so a comparison that is identity on their elements is
identity on the lists. -/
private lemma all_zip_eq_true_iff {α : Type} {equal : α → α → Bool} {as bs : List α}
    (h : ∀ a ∈ as, ∀ b ∈ bs, equal a b = true ↔ a = b) :
    as.length = bs.length ∧ (as.zip bs).all (fun p => equal p.1 p.2) = true ↔ as = bs := by
  induction as generalizing bs with
  | nil => cases bs <;> simp
  | cons a as ih =>
    cases bs with
    | nil => simp
    | cons b bs =>
      have hfirst := h a List.mem_cons_self b List.mem_cons_self
      have hothers := ih fun a ha b hb => h a (.tail _ ha) b (.tail _ hb)
      simp only [List.length_cons, Nat.add_right_cancel_iff, List.zip_cons_cons, List.all_cons,
        Bool.and_eq_true, List.cons.injEq, hfirst, ← hothers]
      exact and_left_comm

/-- **Equality by value is identity on scans.** For any two texts, equal or not, the scans are equal
by value just if they are the same, with the same bits in every number; so every scan is equal to
itself. The same holds of the kinds of any two of their tokens, and of any two of their numbers,
each of which is a number with its sign bit clear.

**Proof sketch.** A number comes from the digits of its lexeme, and the quotient of two natural
numbers rounds to a number without a sign, which may be infinity or zero. On these numbers numeric
equality is identity; the rest of a token is compared for identity anyway, and lists are compared
element by element. -/
theorem scan_equal_iff (s₁ s₂ : String) :
    ((scan s₁).equal (scan s₂) = true ↔ scan s₁ = scan s₂) ∧
    (scan s₁).equal (scan s₁) = true ∧
    (∀ t₁ ∈ (scan s₁).tokens, ∀ t₂ ∈ (scan s₂).tokens,
      (t₁.equal t₂ = true ↔ t₁ = t₂) ∧
      (t₁.kind.equal t₂.kind = true ↔ t₁.kind = t₂.kind) ∧
      ∀ x y, t₁.kind = .literal (.number x) → t₂.kind = .literal (.number y) →
        (t₁.kind.equal t₂.kind = true ↔ x.toBits = y.toBits) ∧
        x.isNaN = false ∧ x.negative = false) ∧
    ∀ x y : Binary64, x = y ↔ x.toBits = y.toBits := by
  have same : ∀ s s' : String, (scan s).equal (scan s') = true ↔ scan s = scan s' := by
    intro s s'
    have htokens := all_zip_eq_true_iff fun t (ht : t ∈ (scan s).tokens) t'
        (ht' : t' ∈ (scan s').tokens) =>
      Token.equal_iff (Token.hasUnsigned ht) (Token.hasUnsigned ht')
    have hparts : scan s = scan s' ↔
        (scan s).tokens = (scan s').tokens ∧ (scan s).errors = (scan s').errors := by
      cases scan s
      cases scan s'
      rw [Scan.mk.injEq]
    rw [hparts, ← htokens]
    simp only [Scan.equal, Bool.and_eq_true, beq_iff_eq]
  refine ⟨same s₁ s₂, (same s₁ s₁).2 rfl, fun t₁ ht₁ t₂ ht₂ => ?_,
    fun x y => Binary64.toBits_inj.symm⟩
  have h₁ := Token.hasUnsigned ht₁
  have h₂ := Token.hasUnsigned ht₂
  refine ⟨Token.equal_iff h₁ h₂, h₁.equal_iff h₂, fun x y hx hy => ⟨?_, ?_, ?_⟩⟩
  · rw [h₁.equal_iff h₂, hx, hy, Binary64.toBits_inj]
    simp
  · exact (h₁ x hx).isNaN
  · exact (h₁ x hx).negative

/-- In general equality by value is no identity: not of what is no number, nor of the zeros. -/
example : (Binary64.ofBits 0x7ff8000000000000).equal (.ofBits 0x7ff8000000000000) = false ∧
    Binary64.zero.equal (.ofBits 0x8000000000000000) = true := by
  decide

end LoxLex
