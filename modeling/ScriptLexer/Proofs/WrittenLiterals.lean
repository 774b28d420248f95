import ScriptLexer.Proofs.NumberLiterals
import ScriptLexer.Proofs.ShortestDecimals
import ScriptLexer.Proofs.WrittenNumbers

/-! # Scanning written values

A written value is scanned. One that is written positionally has digits on both sides of its point, so
it is a single number, and the number is the shortest decimal of the value, which is rounded to it
again. An exponent is no part of numbers in the language: the number ends in front of its letter,
which is a name, and the sign and the digits behind are lexemes of their own. -/

namespace ScriptLexer

open Binary64 (IsCanonical digitsValue digitsValue_append digitsValue_zeros)

namespace Text

theorem isDigits_ofNat (n : ℕ) : IsDigits (ofNat n) :=
  ⟨Nat.toDigits_ne_nil, fun _ hc => isDigit_of_mem_ofNat hc⟩

theorem isDigits_zeros_append {t : Text} (h : IsDigits t) (n : ℕ) :
    IsDigits (List.replicate n '0' ++ t) := by
  refine ⟨by simp [h.1], List.forall_mem_append.2 ⟨fun c hc => ?_, h.2⟩⟩
  rw [List.eq_of_mem_replicate hc]
  rfl

end Text

theorem isDigits_zero : IsDigits ['0'] :=
  ⟨by simp, by simp [isDigit]⟩

theorem digitsValue_zero : digitsValue ['0'] = 0 :=
  digitsValue_zeros 1

theorem digitsValue_ofNat (n : ℕ) : digitsValue (Text.ofNat n) = n :=
  Nat.ofDigitChars_ten_toDigits

/-! ## Layouts -/

namespace Decimal

variable {d : Decimal}

/-- The digits of a decimal around a point denote the decimal, if the point stands where its exponent
says. Zeros may fill up the digits before it. -/
theorem decimalValue_positional {whole fraction : Text} (hw : IsDigits whole)
    (hf : IsDigits fraction) (zeros : ℕ)
    (hv : digitsValue (whole ++ fraction) = 10 ^ zeros * d.digits)
    (he : d.exponent = zeros - fraction.length) :
    decimalValue (whole ++ '.' :: fraction) = d.toRat := by
  have hp : (Piece.number whole (some fraction)).WellFormed := ⟨hw, by simpa using hf⟩
  have := decimalValue_text hp
  rw [Piece.text, Option.getD_some, hv, Nat.pow_eq] at this
  rw [this, toRat, he, zpow_sub₀ (by norm_num), zpow_natCast, zpow_natCast]
  push_cast
  ring

/-- Digits around a point that denote the decimal. -/
def IsPositional (d : Decimal) (t : Text) : Prop :=
  ∃ whole fraction, IsDigits whole ∧ IsDigits fraction ∧ t = whole ++ '.' :: fraction ∧
    decimalValue t = d.toRat

theorem isPositional_below_one {zeros : ℕ}
    (h : d.exponent = -(zeros + (Text.ofNat d.digits).length : ℕ)) :
    IsPositional d (['0', '.'] ++ List.replicate zeros '0' ++ Text.ofNat d.digits) := by
  have hf := Text.isDigits_zeros_append (Text.isDigits_ofNat d.digits) zeros
  have hvalue : digitsValue (['0'] ++ (List.replicate zeros '0' ++ Text.ofNat d.digits)) =
      10 ^ 0 * d.digits := by
    rw [digitsValue_append, digitsValue_append, digitsValue_zeros, digitsValue_zero,
      digitsValue_ofNat]
    simp
  have hexponent : d.exponent =
      (0 : ℕ) - ((List.replicate zeros '0' ++ Text.ofNat d.digits).length : ℤ) := by
    rw [h, List.length_append, List.length_replicate]
    simp
  exact ⟨_, _, isDigits_zero, hf, rfl, decimalValue_positional isDigits_zero hf 0 hvalue hexponent⟩

theorem isPositional_filled {before : ℕ} (hpos : 0 < before)
    (h : d.exponent = before - (Text.ofNat d.digits).length) :
    let filled := Text.ofNat d.digits ++
      List.replicate (before - (Text.ofNat d.digits).length) '0'
    IsPositional d (filled.take before ++ '.' ::
      (if filled.drop before = [] then ['0'] else filled.drop before)) := by
  intro filled
  have hd := Text.isDigits_ofNat d.digits
  have hall : ∀ c ∈ filled, isDigit c = true := by
    refine List.forall_mem_append.2 ⟨hd.2, fun c hc => ?_⟩
    rw [List.eq_of_mem_replicate hc]
    rfl
  have hlength : filled.length = max (Text.ofNat d.digits).length before := by
    rw [List.length_append, List.length_replicate]
    omega
  have hvalue : digitsValue filled =
      10 ^ (before - (Text.ofNat d.digits).length) * d.digits := by
    rw [digitsValue_append, digitsValue_zeros, digitsValue_ofNat, List.length_replicate, Nat.add_zero]
  have hw : IsDigits (filled.take before) := by
    refine ⟨List.ne_nil_of_length_pos ?_, fun c hc => hall c (List.mem_of_mem_take hc)⟩
    rw [List.length_take]
    omega
  split
  · -- There is nothing left for the fraction, so it is one more zero.
    next hdrop =>
    have hle : filled.length ≤ before := List.drop_eq_nil_iff.1 hdrop
    rw [List.take_of_length_le hle] at hw ⊢
    refine ⟨_, _, hw, isDigits_zero, rfl, decimalValue_positional hw isDigits_zero
      (before - (Text.ofNat d.digits).length + 1) ?_ ?_⟩
    · rw [digitsValue_append, hvalue, digitsValue_zero, List.length_singleton]
      ring
    · rw [h, List.length_singleton]
      omega
  · next hdrop =>
    have hlt : before < filled.length := by
      by_contra hge
      exact hdrop (List.drop_of_length_le (not_lt.1 hge))
    have hf : IsDigits (filled.drop before) :=
      ⟨hdrop, fun c hc => hall c (List.mem_of_mem_drop hc)⟩
    refine ⟨_, _, hw, hf, rfl, decimalValue_positional hw hf
      (before - (Text.ofNat d.digits).length) ?_ ?_⟩
    · rw [List.take_append_drop, hvalue]
    · rw [h, List.length_drop]
      omega

theorem exists_writtenExponent (e : ℤ) : ∃ (sign : Symbol) (exponent : Text),
    (sign = .plus ∨ sign = .minus) ∧ IsDigits exponent ∧
      writtenExponent e = sign.spelling ++ exponent := by
  have hd := Text.isDigits_zeros_append (Text.isDigits_ofNat e.natAbs)
    (2 - (Text.ofNat e.natAbs).length)
  unfold writtenExponent
  dsimp only
  split
  · exact ⟨.minus, _, .inr rfl, hd, rfl⟩
  · exact ⟨.plus, _, .inl rfl, hd, rfl⟩

/-- The first digit, and the others behind a point if there are others. -/
theorem isNumber_mantissa {digits : Text} (h : IsDigits digits) :
    IsNumber (digits.take 1 ++ (if digits.drop 1 = [] then [] else '.' :: digits.drop 1)) := by
  have hw : IsDigits (digits.take 1) := by
    refine ⟨List.ne_nil_of_length_pos ?_, fun c hc => h.2 c (List.mem_of_mem_take hc)⟩
    have := List.length_pos_iff.2 h.1
    rw [List.length_take]
    omega
  split
  · rw [List.append_nil]
    exact .inl hw
  · next hdrop =>
    exact .inr ⟨_, _, hw, ⟨hdrop, fun c hc => h.2 c (List.mem_of_mem_drop hc)⟩, rfl⟩

/-- A written decimal has either digits around a point that denote it, or an exponent. -/
theorem written_cases (d : Decimal) : IsPositional d d.written ∨
    ∃ (mantissa : Text) (sign : Symbol) (exponent : Text), IsNumber mantissa ∧ IsDigits exponent ∧
      (sign = .plus ∨ sign = .minus) ∧ d.written = mantissa ++ 'e' :: sign.spelling ++ exponent := by
  have hlength : 0 < (Text.ofNat d.digits).length := Nat.length_toDigits_pos
  unfold written
  dsimp only
  split
  · split
    · next hneg =>
      refine .inl (isPositional_below_one ?_)
      omega
    · next hneg =>
      refine .inl (isPositional_filled ?_ ?_)
      · omega
      · omega
  · obtain ⟨sign, exponent, hsign, he, hw⟩ :=
      exists_writtenExponent (d.exponent + (Text.ofNat d.digits).length - 1)
    refine .inr ⟨_, sign, exponent, isNumber_mantissa (Text.isDigits_ofNat d.digits), he, hsign, ?_⟩
    rw [hw]
    simp

end Decimal

/-! ## Written values -/

/-- A written value that is not negative has either digits around a point whose number is the value,
or an exponent. -/
theorem Binary64.written_cases {m : ℕ} {e : ℤ} (h : IsCanonical m e) :
    (∃ whole fraction, IsDigits whole ∧ IsDigits fraction ∧
      (finite false m e).written = whole ++ '.' :: fraction ∧
      Piece.numberValue whole (some fraction) = finite false m e) ∨
    ∃ (mantissa : Text) (sign : Symbol) (exponent : Text), IsNumber mantissa ∧ IsDigits exponent ∧
      (sign = .plus ∨ sign = .minus) ∧
      (finite false m e).written = mantissa ++ 'e' :: sign.spelling ++ exponent := by
  rcases Nat.eq_zero_or_pos m with rfl | hm
  · obtain rfl : e = -1074 := by
      rw [isCanonical_iff] at h
      omega
    exact .inl ⟨['0'], ['0'], isDigits_zero, isDigits_zero, rfl, rfl⟩
  · have hw : (finite false m e).written = (shortestDecimal m e).written := by
      obtain ⟨k, rfl⟩ := Nat.exists_eq_add_of_lt hm
      rfl
    rw [hw]
    refine (Decimal.written_cases (shortestDecimal m e)).imp_left ?_
    rintro ⟨whole, fraction, hwhole, hfraction, ht, hv⟩
    have hp : (Piece.number whole (some fraction)).WellFormed :=
      ⟨hwhole, by simpa using hfraction⟩
    have hr := isRounding_numberValue hp
    rw [Piece.text, ← ht, hv] at hr
    exact ⟨whole, fraction, hwhole, hfraction, ht, hr.eq_of_shortestDecimal hm h⟩

/-! ## Scanning -/

theorem IsDigits.not_mem {t : Text} {c : Char} (h : IsDigits t) (hc : isDigit c = false) : c ∉ t := by
  intro hm
  rw [h.2 c hm] at hc
  cases hc

theorem IsNumber.lineFeeds_eq_zero {w : Text} (h : IsNumber w) : Text.lineFeeds w = 0 := by
  rcases h with h | ⟨whole, fraction, hw, hf, rfl⟩
  · exact Text.lineFeeds_eq_zero (h.not_mem rfl)
  · refine Text.lineFeeds_eq_zero ?_
    simp [hw.not_mem, hf.not_mem, isDigit]

theorem scan_number {whole : Text} {fraction : Option Text}
    (h : (Piece.number whole fraction).WellFormed) :
    let text := (Piece.number whole fraction).text
    scan text = ⟨[⟨.number, text, some (.number (Piece.numberValue whole fraction)), 1⟩,
      Token.endOfText 1], []⟩ := by
  intro text
  have hl : Text.lineFeeds text = 0 := (isNumber_iff.2 ⟨whole, fraction, h, rfl⟩).lineFeeds_eq_zero
  have hc : IsCut text [.number whole fraction] := Piece.isCut_text h rfl
  rw [scan, ← hc.eq_cut]
  simp [Scan.ofPieces, Piece.token?, Piece.error?, hl, text]

/-- In front of the letter of an exponent a number ends; the letter is a name, which the sign ends. -/
theorem isCut_exponential {whole exponent : Text} {fraction : Option Text} {sign : Symbol}
    (hm : (Piece.number whole fraction).WellFormed) (he : IsDigits exponent)
    (hs : sign = .plus ∨ sign = .minus) :
    IsCut ((Piece.number whole fraction).text ++ 'e' :: sign.spelling ++ exponent)
      [.number whole fraction, .word ['e'], .symbol sign, .number exponent none] := by
  have hexponent : IsCut exponent [.number exponent none] :=
    Piece.isCut_text (p := .number exponent none) ⟨he, by simp⟩ rfl
  have hsign : IsCut (sign.spelling ++ exponent) [.symbol sign, .number exponent none] := by
    refine .cons (p := .symbol sign) ⟨trivial, ?_⟩ hexponent
    rcases hs with rfl | rfl <;> trivial
  have hletter : IsCut ('e' :: sign.spelling ++ exponent)
      [.word ['e'], .symbol sign, .number exponent none] := by
    refine .cons (p := .word ['e']) ⟨⟨rfl, by simp⟩, ?_⟩ hsign
    rcases hs with rfl | rfl <;> exact Text.stopsRun_cons.2 rfl
  rw [List.append_assoc]
  refine .cons ⟨hm, ?_⟩ hletter
  have hstops : Text.StopsRun isDigit ('e' :: sign.spelling ++ exponent) := Text.stopsRun_cons.2 rfl
  cases fraction with
  | none =>
    refine ⟨hstops, ?_⟩
    rintro ⟨d, rest, heq, -⟩
    cases heq
  | some f => exact hstops

/-- A number, the letter, the sign and a number. -/
theorem scan_exponential {mantissa exponent : Text} {sign : Symbol} (hm : IsNumber mantissa)
    (he : IsDigits exponent) (hs : sign = .plus ∨ sign = .minus) :
    ∃ a b, Binary64.ofText? mantissa = some a ∧ Binary64.ofText? exponent = some b ∧
      scan (mantissa ++ 'e' :: sign.spelling ++ exponent) =
        ⟨[⟨.number, mantissa, some (.number a), 1⟩, ⟨.identifier, ['e'], none, 1⟩,
          ⟨.symbol sign, sign.spelling, none, 1⟩, ⟨.number, exponent, some (.number b), 1⟩,
          Token.endOfText 1], []⟩ := by
  have hlm := hm.lineFeeds_eq_zero
  have hle : Text.lineFeeds exponent = 0 := IsNumber.lineFeeds_eq_zero (.inl he)
  have hls : Text.lineFeeds sign.spelling = 0 := by
    rcases hs with rfl | rfl <;> rfl
  have hpe : (Piece.number exponent none).WellFormed := ⟨he, by simp⟩
  obtain ⟨whole, fraction, hp, rfl⟩ := isNumber_iff.1 hm
  refine ⟨_, _, Binary64.ofText?_number hp, Binary64.ofText?_number hpe, ?_⟩
  have hword : TokenKind.ofWord ['e'] = .identifier := by decide
  have hletter : Text.lineFeeds ['e'] = 0 := rfl
  have htexts : (Piece.word ['e']).text = ['e'] ∧ (Piece.symbol sign).text = sign.spelling ∧
      (Piece.number exponent none).text = exponent := ⟨rfl, rfl, rfl⟩
  rw [scan, ← (isCut_exponential hp he hs).eq_cut]
  simp [Scan.ofPieces, Piece.token?, Piece.error?, htexts, hlm, hle, hls, hword, hletter]

/-- Written values scan back. A finite value without a sign is written without an exponent as one
number, which scanning reads as that value. With an exponent it never is one number: scanning ends
the number in front of the exponent's letter and reads the letter as a name, then the sign, then the
exponent's digits as another number. Neither has errors, and the stepwise lexer comes to the same. -/
theorem written_values_scan_back {m : ℕ} {e : ℤ} (h : IsCanonical m e) :
    let v := Binary64.finite false m e
    ('e' ∉ v.written →
      scan v.written =
        ⟨[⟨.number, v.written, some (.number v), 1⟩, Token.endOfText 1], []⟩) ∧
    ('e' ∈ v.written →
      ∃ (mantissa : Text) (sign : Symbol) (exponent : Text) (a b : Binary64),
        IsNumber mantissa ∧ (sign = .plus ∨ sign = .minus) ∧ IsDigits exponent ∧
        v.written = mantissa ++ 'e' :: sign.spelling ++ exponent ∧
        Binary64.ofText? mantissa = some a ∧ Binary64.ofText? exponent = some b ∧
        scan v.written =
          ⟨[⟨.number, mantissa, some (.number a), 1⟩, ⟨.identifier, ['e'], none, 1⟩,
            ⟨.symbol sign, sign.spelling, none, 1⟩, ⟨.number, exponent, some (.number b), 1⟩,
            Token.endOfText 1], []⟩) ∧
    ∃ ended, Lexer.tokenize { source := v.written } = (.ok (scan v.written).tokens, ended) ∧
      ended.errors = [] := by
  intro v
  rcases Binary64.written_cases h with ⟨whole, fraction, hw, hf, ht, hv⟩ |
    ⟨mantissa, sign, exponent, hm, he, hs, ht⟩
  · have hp : (Piece.number whole (some fraction)).WellFormed := ⟨hw, by simpa using hf⟩
    have hscan := scan_number hp
    rw [Piece.text, hv, ← ht] at hscan
    have hmem : 'e' ∉ v.written := by
      rw [ht]
      simp [hw.not_mem, hf.not_mem, isDigit]
    obtain ⟨ended, hrun, herrors⟩ := Lexer.tokenize_of_scan_eq hscan
    rw [← hscan] at hrun
    exact ⟨fun _ => hscan, fun hmem' => absurd hmem' hmem, ended, hrun, herrors⟩
  · obtain ⟨a, b, ha, hb, hscan⟩ := scan_exponential hm he hs
    rw [← ht] at hscan
    have hmem : 'e' ∈ v.written := by
      rw [ht]
      simp
    obtain ⟨ended, hrun, herrors⟩ := Lexer.tokenize_of_scan_eq hscan
    rw [← hscan] at hrun
    exact ⟨fun hmem' => absurd hmem hmem',
      fun _ => ⟨mantissa, sign, exponent, a, b, hm, hs, he, ht, ha, hb, hscan⟩, ended, hrun, herrors⟩

/-- The value nearest to a tenth is one number again; the least positive value is four lexemes. -/
theorem tenth_and_least_value_scan_back :
    let tenth := Binary64.finite false 7205759403792794 (-56)
    let least := Binary64.finite false 1 (-1074)
    IsCanonical 7205759403792794 (-56) ∧ IsCanonical 1 (-1074) ∧
    tenth.written = "0.1".toList ∧ least.written = "5e-324".toList ∧
    scan "0.1".toList =
      ⟨[⟨.number, "0.1".toList, some (.number tenth), 1⟩, Token.endOfText 1], []⟩ ∧
    ∃ (mantissa : Text) (sign : Symbol) (exponent : Text) (a b : Binary64),
      "5e-324".toList = mantissa ++ 'e' :: sign.spelling ++ exponent ∧
      scan "5e-324".toList =
        ⟨[⟨.number, mantissa, some (.number a), 1⟩, ⟨.identifier, ['e'], none, 1⟩,
          ⟨.symbol sign, sign.spelling, none, 1⟩, ⟨.number, exponent, some (.number b), 1⟩,
          Token.endOfText 1], []⟩ := by
  intro tenth least
  have htenth : IsCanonical 7205759403792794 (-56) := by decide
  have hleast : IsCanonical 1 (-1074) := by decide
  have hwt : tenth.written = "0.1".toList := by decide +kernel
  have hwl : least.written = "5e-324".toList := by decide +kernel
  have hpositional := (written_values_scan_back htenth).1
  have hexponential := (written_values_scan_back hleast).2.1
  rw [show Binary64.finite false 7205759403792794 (-56) = tenth from rfl, hwt] at hpositional
  rw [show Binary64.finite false 1 (-1074) = least from rfl, hwl] at hexponential
  obtain ⟨mantissa, sign, exponent, a, b, -, -, -, ht, -, -, hscan⟩ := hexponential (by decide)
  exact ⟨htenth, hleast, hwt, hwl, hpositional (by decide), mantissa, sign, exponent, a, b, ht, hscan⟩

end ScriptLexer
