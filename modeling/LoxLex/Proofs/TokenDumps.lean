import LoxLex.Proofs.Concatenation

set_option relaxedAutoImplicit false
set_option autoImplicit false

/-!
# Token dumps can be read back

A token dump writes names, lexemes and values raw, with spaces between them, and a string may have
spaces, newlines and whole lines of another dump in it. Still the dump of a scan tells which tokens
were found: a name has no space, a lexeme has none or ends with its second quote, and the lexeme
tells the kind and with it all that follows on its line. So the lines of a dump can be taken off one
after the other.

## Main definitions

* `LoxLex.dump` — the lines of tokens, one below the other.
* `LoxLex.IsField` — the texts that a space ends, or that are quoted.
* `LoxLex.Token.fields` — a line of a dump, whatever is written for the value.

## Main results

* `LoxLex.IsField.cancel` — the first field of a text is determined by the text.
* `LoxLex.Token.fields_cancel` — so is the token of the first line.
* `LoxLex.tokens_eq_of_dump_eq` — scans with the same dump have the same tokens.
-/

namespace LoxLex

/-- The dump of tokens: the line of each of them, one below the other. -/
def dump (tokens : List Token) : String :=
  String.join (tokens.map fun t => t.canonical ++ "\n")

/-! ## Fields -/

/-- A field of a line: a text without spaces that does not begin with a quote, or a text in
quotes. -/
inductive IsField : List Char → Prop where
  | plain {text : List Char} (hspace : ' ' ∉ text) (hquote : text.head? ≠ some '\x22') :
    IsField text
  | quoted {body : List Char} (h : '\x22' ∉ body) : IsField ('\x22' :: (body ++ ['\x22']))

/-- What is in front of the first of some characters is determined by the text. -/
lemma append_cons_cancel {stop : Char} {a b x y : List Char} (ha : stop ∉ a) (hb : stop ∉ b)
    (h : a ++ stop :: x = b ++ stop :: y) : a = b ∧ x = y := by
  have front : ∀ {c z : List Char}, stop ∉ c → (c ++ stop :: z).takeWhile (· != stop) = c := by
    intro c z hc
    rw [List.takeWhile_append_of_pos]
    · simp
    · intro ch hch
      simpa using fun heq : ch = stop => hc (heq ▸ hch)
  obtain rfl : a = b := by rw [← front (z := x) ha, h, front hb]
  exact ⟨rfl, (List.cons.inj (List.append_cancel_left h)).2⟩

/-- The first field of a text is determined by the text.

**Proof sketch.** Its first character tells whether it is quoted. It ends with the second quote or in
front of the first space. -/
theorem IsField.cancel {a b x y : List Char} (ha : IsField a) (hb : IsField b)
    (h : a ++ ' ' :: x = b ++ ' ' :: y) : a = b ∧ x = y := by
  have begins : ∀ {text z : List Char}, text.head? ≠ some '\x22' →
      (text ++ ' ' :: z).head? ≠ some '\x22' := by
    intro text z hquote
    cases text with
    | nil => simp
    | cons ch text => exact hquote
  cases ha with
  | plain hspace hquote =>
    cases hb with
    | plain hspace' => exact append_cons_cancel hspace hspace' h
    | quoted => exact absurd (by rw [h]; rfl) (begins (z := x) hquote)
  | quoted hbody =>
    cases hb with
    | plain _ hquote => exact absurd (by rw [← h]; rfl) (begins (z := y) hquote)
    | quoted hbody' =>
      rw [List.cons_append, List.cons_append, List.append_assoc, List.append_assoc] at h
      obtain ⟨rfl, hrest⟩ := append_cons_cancel hbody hbody' (List.cons.inj h).2
      exact ⟨rfl, (List.cons.inj hrest).2⟩

/-- Names have no spaces. -/
lemma Kind.space_not_mem_name (kind : Kind) : ' ' ∉ kind.name.toList := by
  cases kind with
  | operator op =>
    have names : ∀ op ∈ Operator.all, ' ' ∉ op.name.toList := by decide
    exact names op op.mem_all
  | keyword word =>
    have names : ∀ word ∈ Keyword.all, ' ' ∉ word.name.toList := by decide
    exact names word word.mem_all
  | literal value =>
    have names : ' ' ∉ "STRING".toList ∧ ' ' ∉ "NUMBER".toList := by decide
    cases value with
    | string body => exact names.1
    | number value => exact names.2
  | identifier | endOfInput => decide

/-- Lexemes are fields. -/
lemma IsLexeme.isField {kind : Kind} {text : List Char} (h : IsLexeme kind text) : IsField text := by
  by_cases hquote : kind.frontClass = .quote
  · cases h with
    | string hbody => exact .quoted hbody
    | _ => cases hquote
  · refine .plain ?_ fun hhead => ?_
    · by_cases hslash : kind = .operator .slash
      · subst hslash
        cases h
        decide
      · intro hspace
        exact absurd (h.isPlain hquote hslash ' ' hspace).1 (by decide)
    · obtain ⟨ch, others, rfl, hclass⟩ := h.front
      obtain rfl : ch = '\x22' := Option.some.inj hhead
      exact hquote (hclass.symm.trans classOf_quote)

namespace Token

/-- The lexeme of a well-formed token is a field. -/
lemma WellFormed.isField {t : Token} (h : t.WellFormed) : IsField t.lexeme.toList := by
  rcases h with h | ⟨-, h⟩
  · exact h.isField
  · rw [h]
    exact .plain (by simp) (by simp)

/-- The lexeme of a well-formed token tells its kind. -/
lemma WellFormed.kind_eq {t u : Token} (ht : t.WellFormed) (hu : u.WellFormed)
    (h : t.lexeme = u.lexeme) : t.kind = u.kind := by
  have nonempty : ∀ {kind : Kind}, ¬ IsLexeme kind "".toList := by
    intro kind hkind
    obtain ⟨ch, others, heq, -⟩ := hkind.front
    cases heq
  rcases ht with ht | ⟨htkind, htlexeme⟩ <;> rcases hu with hu | ⟨hukind, hulexeme⟩
  · exact ht.kind_unique (h ▸ hu)
  · rw [h, hulexeme] at ht
    exact absurd ht nonempty
  · rw [← h, htlexeme] at hu
    exact absurd hu nonempty
  · rw [htkind, hukind]

/-! ## Lines -/

/-- The line of a token, with the given text for its value. -/
def fields (valueText : Kind → List Char) (t : Token) : List Char :=
  t.kind.name.toList ++ ' ' :: (t.lexeme.toList ++ ' ' :: (valueText t.kind ++ ['\n']))

/-- The token of the first line of a text is determined by the text, whatever is written for the
values.

**Proof sketch.** The name and the lexeme are the first two fields. They are the same for both
tokens, so the kinds are the same; and the rest of the line is a function of the kind. -/
theorem fields_cancel {valueText : Kind → List Char} {t u : Token} {x y : List Char}
    (ht : t.WellFormed) (hu : u.WellFormed)
    (h : t.fields valueText ++ x = u.fields valueText ++ y) :
    (t.kind = u.kind ∧ t.lexeme = u.lexeme) ∧ x = y := by
  simp only [fields, List.append_assoc, List.cons_append] at h
  obtain ⟨-, hbehind⟩ := append_cons_cancel t.kind.space_not_mem_name u.kind.space_not_mem_name h
  obtain ⟨hlexeme, hvalue⟩ := ht.isField.cancel hu.isField hbehind
  have hsame : t.lexeme = u.lexeme := String.toList_inj.1 hlexeme
  have hkind := ht.kind_eq hu hsame
  rw [hkind] at hvalue
  exact ⟨⟨hkind, hsame⟩, (List.cons.inj (List.append_cancel_left hvalue)).2⟩

end Token

/-- Lines that make up the same text are the lines of the same tokens.

**Proof sketch.** Induction on the tokens. The first line is taken off on both sides; no line is
empty, so none is left on one side alone. -/
lemma contents_eq_of_fields_eq {valueText : Kind → List Char} {ts us : List Token}
    (hts : ∀ t ∈ ts, t.WellFormed) (hus : ∀ u ∈ us, u.WellFormed)
    (h : ts.flatMap (Token.fields valueText) = us.flatMap (Token.fields valueText)) :
    ts.map (fun t => (t.kind, t.lexeme)) = us.map (fun t => (t.kind, t.lexeme)) := by
  have nonempty : ∀ t : Token, t.fields valueText ≠ [] := by simp [Token.fields]
  induction ts generalizing us with
  | nil =>
    cases us with
    | nil => rfl
    | cons u us => exact absurd (List.append_eq_nil_iff.1 h.symm).1 (nonempty u)
  | cons t ts ih =>
    cases us with
    | nil => exact absurd (List.append_eq_nil_iff.1 h).1 (nonempty t)
    | cons u us =>
      obtain ⟨ht, hts⟩ := List.forall_mem_cons.1 hts
      obtain ⟨hu, hus⟩ := List.forall_mem_cons.1 hus
      obtain ⟨⟨hkind, hlexeme⟩, hrest⟩ := Token.fields_cancel ht hu h
      rw [List.map_cons, List.map_cons, hkind, hlexeme, ih hts hus hrest]

/-! ## Dumps -/

/-- What a dump writes for the value that comes with a kind. -/
def Kind.valueText (kind : Kind) : List Char :=
  match kind.literal? with
  | some value => value.text.toList
  | none => "null".toList

/-- The characters of a dump are the lines of its tokens. -/
lemma toList_dump (tokens : List Token) :
    (dump tokens).toList = tokens.flatMap (Token.fields Kind.valueText) := by
  have line : ∀ t : Token, (t.canonical ++ "\n").toList = t.fields Kind.valueText := by
    intro t
    rw [Token.canonical, Token.literal?, Token.fields, Kind.valueText]
    cases t.kind.literal? <;> simp
  rw [dump, String.toList_join, List.flatMap_map]
  simp only [line]

/-- **A token dump can be read back.** If the scans of two texts have the same dump, they have the
same tokens in the same order, with their kinds, values and lexemes.

**Proof sketch.** The tokens of a scan are well-formed, and the dump consists of their lines. -/
theorem tokens_eq_of_dump_eq (a b : String) (h : dump (scan a).tokens = dump (scan b).tokens) :
    (scan a).tokens.map (fun t => (t.kind, t.lexeme)) =
      (scan b).tokens.map (fun t => (t.kind, t.lexeme)) := by
  have hlines : (scan a).tokens.flatMap (Token.fields Kind.valueText) =
      (scan b).tokens.flatMap (Token.fields Kind.valueText) := by
    rw [← toList_dump, ← toList_dump, h]
  exact contents_eq_of_fields_eq (fun _ => wellFormed_of_mem_tokens)
    (fun _ => wellFormed_of_mem_tokens) hlines

/-- A string with what looks like the end of a dump in it, and a number; in the second text with an
error, a comment and other blanks. -/
theorem tokens_eq_of_dump_eq_of_string :
    dump (scan "\"x\nEOF  null\n\" 1.50").tokens =
        dump (scan "@\"x\nEOF  null\n\"//\"\n\t1.50").tokens ∧
      (scan "\"x\nEOF  null\n\" 1.50").tokens.map (fun t => (t.kind, t.lexeme)) =
        (scan "@\"x\nEOF  null\n\"//\"\n\t1.50").tokens.map (fun t => (t.kind, t.lexeme)) := by
  have hdump : dump (scan "\"x\nEOF  null\n\" 1.50").tokens =
      dump (scan "@\"x\nEOF  null\n\"//\"\n\t1.50").tokens := by decide +kernel
  exact ⟨hdump, tokens_eq_of_dump_eq _ _ hdump⟩

end LoxLex
