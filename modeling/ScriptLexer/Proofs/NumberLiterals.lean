import ScriptLexer.Proofs.Lexemes
import ScriptLexer.Proofs.NumberText
import ScriptLexer.Proofs.Rounding
import ScriptLexer.Proofs.Tokenizing

/-! # Number literals

The literal of a number token is the value that the number in its lexeme is rounded to. What a numeral
denotes is said without digits being collected: each digit before the point makes what came before
ten times as much, each digit after it counts a tenth of what it would one place before. So zeros in
front of a numeral and behind its fraction make no difference, and literals are ordered as the
numbers are. -/

namespace ScriptLexer

/-! ## What a numeral denotes -/

def digitValue (c : Char) : ℕ :=
  c.toNat - '0'.toNat

/-- The digits after a point. -/
def fractionValue : Text → ℚ
  | [] => 0
  | d :: rest => (digitValue d + fractionValue rest) / 10

/-- The number that a numeral denotes if the digits in front of it denote `before`. -/
def decimalValueFrom (before : ℚ) : Text → ℚ
  | [] => before
  | '.' :: fraction => before + fractionValue fraction
  | d :: rest => decimalValueFrom (10 * before + digitValue d) rest

/-- The number that a numeral denotes. -/
def decimalValue (t : Text) : ℚ :=
  decimalValueFrom 0 t

namespace Binary64

theorem digitsValue_append (s t : Text) :
    digitsValue (s ++ t) = 10 ^ t.length * digitsValue s + digitsValue t := by
  rw [digitsValue, Nat.ofDigitChars_append, Nat.ofDigitChars_eq_ofDigitChars_zero]
  rfl

theorem digitsValue_cons (d : Char) (t : Text) :
    digitsValue (d :: t) = 10 ^ t.length * digitValue d + digitsValue t := by
  rw [digitsValue, Nat.ofDigitChars_cons, Nat.ofDigitChars_eq_ofDigitChars_zero, Nat.mul_zero,
    Nat.zero_add]
  rfl

theorem digitsValue_zeros (n : ℕ) : digitsValue (List.replicate n '0') = 0 := by
  rw [digitsValue, Nat.ofDigitChars_replicate_zero, Nat.mul_zero]

end Binary64

open Binary64 (digitsValue digitsValue_cons digitsValue_append digitsValue_zeros)

theorem fractionValue_eq (t : Text) : fractionValue t = digitsValue t / 10 ^ t.length := by
  induction t with
  | nil => simp [fractionValue, digitsValue]
  | cons d t ih =>
    rw [fractionValue, ih, digitsValue_cons, List.length_cons]
    push_cast
    field_simp
    ring

theorem decimalValueFrom_cons {d : Char} (hd : isDigit d = true) (before : ℚ) (t : Text) :
    decimalValueFrom before (d :: t) = decimalValueFrom (10 * before + digitValue d) t := by
  have hne : d ≠ '.' := by
    rintro rfl
    cases hd
  rw [decimalValueFrom]
  exact hne

theorem decimalValueFrom_append {whole : Text} (hw : ∀ c ∈ whole, isDigit c = true) (before : ℚ)
    (t : Text) : decimalValueFrom before (whole ++ t) =
      decimalValueFrom (10 ^ whole.length * before + digitsValue whole) t := by
  induction whole generalizing before with
  | nil => simp [digitsValue]
  | cons d whole ih =>
    obtain ⟨hd, hw⟩ := List.forall_mem_cons.1 hw
    rw [List.cons_append, decimalValueFrom_cons hd, ih hw, digitsValue_cons, List.length_cons]
    congr 1
    push_cast
    ring

/-- What a numeral denotes is the quotient that its literal is made from. -/
theorem decimalValue_text {whole : Text} {fraction : Option Text}
    (h : (Piece.number whole fraction).WellFormed) :
    decimalValue (Piece.number whole fraction).text =
      digitsValue (whole ++ fraction.getD []) / (Nat.pow 10 (fraction.getD []).length : ℕ) := by
  obtain ⟨hw, -⟩ := h
  cases fraction with
  | none =>
    have := decimalValueFrom_append hw.2 0 []
    rw [List.append_nil] at this
    rw [Piece.text, decimalValue, this, decimalValueFrom]
    simp
  | some f =>
    rw [Piece.text, decimalValue, decimalValueFrom_append hw.2, decimalValueFrom, fractionValue_eq,
      Nat.pow_eq, Option.getD_some, digitsValue_append]
    push_cast
    field_simp
    ring

/-! ## Zeros that make no difference -/

theorem decimalValue_leading_zeros (n : ℕ) (t : Text) :
    decimalValue (List.replicate n '0' ++ t) = decimalValue t := by
  rw [decimalValue, decimalValueFrom_append (by simp [isDigit]), digitsValue_zeros]
  simp [decimalValue]

theorem fractionValue_trailing_zeros (n : ℕ) (t : Text) :
    fractionValue (t ++ List.replicate n '0') = fractionValue t := by
  rw [fractionValue_eq, fractionValue_eq, digitsValue_append, digitsValue_zeros,
    List.length_append, List.length_replicate]
  push_cast
  field_simp
  ring

theorem decimalValue_trailing_zeros (n : ℕ) {t : Text} (h : '.' ∈ t) :
    decimalValue (t ++ List.replicate n '0') = decimalValue t := by
  unfold decimalValue
  generalize (0 : ℚ) = before
  fun_induction decimalValueFrom before t with
  | case1 => cases h
  | case2 before fraction =>
    rw [List.cons_append, decimalValueFrom, fractionValue_trailing_zeros]
  | case3 before d rest hne ih =>
    have hrest : '.' ∈ rest := by
      rcases List.mem_cons.1 h with heq | hrest
      · exact absurd heq.symm hne
      · exact hrest
    rw [List.cons_append, decimalValueFrom, ih hrest]
    exact hne

/-! ## Literals of number tokens -/

open Binary64 (IsCanonical IsRounding AtMost overflow isRounding_ofRatio)

theorem decimalValue_nonneg {w : Text} (h : IsNumber w) : 0 ≤ decimalValue w := by
  obtain ⟨whole, fraction, hp, rfl⟩ := isNumber_iff.1 h
  rw [decimalValue_text hp]
  positivity

theorem isRounding_numberValue {whole : Text} {fraction : Option Text}
    (h : (Piece.number whole fraction).WellFormed) :
    IsRounding (decimalValue (Piece.number whole fraction).text)
      (Piece.numberValue whole fraction) := by
  rw [decimalValue_text h]
  exact isRounding_ofRatio _ (Nat.pow_pos (by decide))

/-- A number token has a number as its lexeme and the value of that lexeme as its literal. -/
theorem exists_literal_of_mem_scan {source : Text} {t : Token} (ht : t ∈ (scan source).tokens)
    (hk : t.kind = .number) :
    IsNumber t.lexeme ∧ ∃ v, t.literal = some (.number v) ∧ Binary64.ofText? t.lexeme = some v ∧
      IsRounding (decimalValue t.lexeme) v := by
  have hc := isCut_cut source
  rw [tokens_scan hc, List.mem_append, List.mem_singleton] at ht
  rcases ht with ht | rfl
  · obtain ⟨a, ha, ht⟩ := List.mem_filterMap.1 ht
    obtain ⟨after, hf, -⟩ := fits_of_mem_placed hc ha
    have hw := hf.wellFormed
    cases hp : a.piece with
    | number whole fraction =>
      rw [hp] at ht hw
      cases ht
      exact ⟨isNumber_iff.2 ⟨whole, fraction, hw, rfl⟩, _, rfl, Binary64.ofText?_number hw,
        isRounding_numberValue hw⟩
    | word w =>
      rw [hp] at ht
      cases ht
      exact absurd hk (TokenKind.ofWord_ne (by simp) rfl w)
    | symbol | string =>
      rw [hp] at ht
      cases ht
      cases hk
    | _ =>
      rw [hp] at ht
      cases ht
  · cases hk

/-- Number literals are exactly rounded. The literal of a number token is the binary64 value nearest
to the number that its lexeme denotes, of two equally near ones the even; it is infinity from half
way to the next power of two on, and zero up to half the least value. It has no sign and is a number.
Zeros in front of the lexeme and behind its fraction make no difference, and with any other number
token of any text, equal numbers have equal literals and larger ones have no smaller literals. The
stepwise lexer gives the same tokens. -/
theorem number_literals_are_nearest {source : Text} {t : Token} (ht : t ∈ (scan source).tokens)
    (hk : t.kind = .number) :
    IsNumber t.lexeme ∧
    (∃ v, t.literal = some (.number v) ∧ Binary64.ofText? t.lexeme = some v ∧
      IsRounding (decimalValue t.lexeme) v ∧
      (v = .infinity false ↔ overflow ≤ decimalValue t.lexeme) ∧
      (v = .zero false ↔ decimalValue t.lexeme ≤ 2 ^ (-1075 : ℤ)) ∧
      (v = .infinity false ∨ ∃ m e, IsCanonical m e ∧ v = .finite false m e) ∧
      ∀ other, ∀ u ∈ (scan other).tokens, u.kind = .number →
        ∃ w, u.literal = some (.number w) ∧
          (decimalValue t.lexeme = decimalValue u.lexeme → v = w) ∧
          (decimalValue t.lexeme ≤ decimalValue u.lexeme → AtMost v w)) ∧
    (∀ n, decimalValue (List.replicate n '0' ++ t.lexeme) = decimalValue t.lexeme) ∧
    ('.' ∈ t.lexeme →
      ∀ n, decimalValue (t.lexeme ++ List.replicate n '0') = decimalValue t.lexeme) ∧
    ∃ ended, Lexer.tokenize { source } = (.ok (scan source).tokens, ended) := by
  obtain ⟨hn, v, hl, ho, hr⟩ := exists_literal_of_mem_scan ht hk
  obtain ⟨ended, hrun, -⟩ := Lexer.tokenize_eq { source }
  refine ⟨hn, ⟨v, hl, ho, hr, hr.eq_infinity_iff, hr.eq_zero_iff (decimalValue_nonneg hn), ?_, ?_⟩,
    fun n => decimalValue_leading_zeros n _, fun h n => decimalValue_trailing_zeros n h, ended, hrun⟩
  · cases hr with
    | nearest _ h => exact .inr ⟨_, _, h.isFinite, rfl⟩
    | tooLarge _ => exact .inl rfl
  · intro other u hu hku
    obtain ⟨-, w, hlu, -, hru⟩ := exists_literal_of_mem_scan hu hku
    exact ⟨w, hlu, fun heq => hr.eq (heq ▸ hru), fun hle => hr.atMost hru hle⟩

/-- Two to the 53 and one is half way between two values, and is rounded to the even one below. -/
theorem number_half_way_is_even :
    let source := "9007199254740993.0".toList
    let t : Token := ⟨.number, source, some (.number (.finite false (2 ^ 52) 1)), 1⟩
    t ∈ (scan source).tokens ∧ t.kind = .number ∧
      IsRounding (decimalValue source) (.finite false (2 ^ 52) 1) := by
  intro source t
  have ht : t ∈ (scan source).tokens := by decide +kernel
  obtain ⟨-, ⟨v, hv, -, hr, -⟩, -⟩ := number_literals_are_nearest ht rfl
  cases hv
  exact ⟨ht, rfl, hr⟩

end ScriptLexer
