import ScriptLexer.Proofs.NearestValues

/-! # Rounding quotients

`ofRatio` gives the value that a quotient is rounded to. The exponent is found first: at its unit the
quotient has all the binary digits that a significand has room for, unless the unit is the least.
Counted in that unit the quotient is rounded to a natural number, and what is rounded to one is also
rounded to the value it is the significand of. -/

namespace ScriptLexer.Binary64

variable {m num den : ℕ} {e : ℤ} {q : ℚ}

/-! ## Counting in units -/

/-- A power with an exponent of either sign by powers with natural exponents. -/
theorem zpow_eq_div {b : ℚ} (hb : b ≠ 0) (e : ℤ) : b ^ e = b ^ e.toNat / b ^ (-e).toNat := by
  rw [← zpow_natCast, ← zpow_natCast, ← zpow_sub₀ hb]
  congr 1
  omega

theorem inUnits_snd_pos (hden : 0 < den) (num : ℕ) (e : ℤ) : 0 < (inUnits num den e).2 :=
  Nat.mul_pos hden (Nat.pow_pos (by decide))

theorem inUnits_div (num den : ℕ) (e : ℤ) :
    ((inUnits num den e).1 : ℚ) / (inUnits num den e).2 = num / den / 2 ^ e := by
  rw [zpow_eq_div (by norm_num)]
  simp only [inUnits, Nat.pow_eq]
  push_cast
  field_simp

/-- The exponent `e` has the unit in which `q` is counted: a significand has room for the digits
before the point, and they fill it unless the unit is the least. -/
structure FitsUnit (e : ℤ) (q : ℚ) : Prop where
  min_le : minExponent ≤ e
  lt : q < 2 ^ 53 * 2 ^ e
  le : e = minExponent ∨ 2 ^ 52 * 2 ^ e ≤ q

theorem two_pow_log2_le (hn : num ≠ 0) : (2 : ℚ) ^ (num.log2 : ℤ) ≤ num := by
  rw [zpow_natCast]
  exact_mod_cast Nat.log2_self_le hn

theorem lt_two_pow_log2 (num : ℕ) : (num : ℚ) < 2 ^ (num.log2 + 1 : ℤ) := by
  have := Nat.lt_log2_self (n := num)
  exact_mod_cast this

/-- Two numbers between powers of a base enclose their quotient between powers of it. -/
theorem div_bounds {base x y : ℚ} (hbase : 0 < base) {i j : ℤ} (hx : base ^ i ≤ x)
    (hx' : x < base ^ (i + 1)) (hy : base ^ j ≤ y) (hy' : y < base ^ (j + 1)) :
    base ^ (i - j - 1) ≤ x / y ∧ x / y < base ^ (i - j + 1) := by
  have hpos : ∀ k : ℤ, 0 < base ^ k := zpow_pos hbase
  have hy0 : 0 < y := (hpos j).trans_le hy
  constructor
  · rw [le_div_iff₀ hy0]
    calc base ^ (i - j - 1) * y ≤ base ^ (i - j - 1) * base ^ (j + 1) :=
          mul_le_mul_of_nonneg_left hy'.le (hpos _).le
      _ = base ^ i := by
          rw [← zpow_add₀ hbase.ne']
          congr 1
          omega
      _ ≤ x := hx
  · rw [div_lt_iff₀ hy0]
    calc x < base ^ (i + 1) := hx'
      _ = base ^ (i - j + 1) * base ^ j := by
          rw [← zpow_add₀ hbase.ne']
          congr 1
          omega
      _ ≤ base ^ (i - j + 1) * y := mul_le_mul_of_nonneg_left hy (hpos _).le

/-- The binary lengths of two numbers enclose their quotient. -/
theorem log2_bounds (hnum : num ≠ 0) (hden : den ≠ 0) :
    (2 : ℚ) ^ ((num.log2 : ℤ) - den.log2 - 1) ≤ num / den ∧
      num / den < (2 : ℚ) ^ ((num.log2 : ℤ) - den.log2 + 1) :=
  div_bounds (by norm_num) (two_pow_log2_le hnum) (lt_two_pow_log2 num) (two_pow_log2_le hden)
    (lt_two_pow_log2 den)

/-- Whether the quotient has at most 53 digits before the point, by its floor. -/
theorem inUnits_div_lt_iff (hden : 0 < den) :
    (inUnits num den e).1 / (inUnits num den e).2 < Nat.pow 2 precision ↔
      (num / den : ℚ) < 2 ^ 53 * 2 ^ e := by
  rw [← div_lt_iff₀ (two_zpow_pos e), ← inUnits_div, Nat.div_lt_iff_lt_mul (inUnits_snd_pos hden _ _),
    div_lt_iff₀ (by exact_mod_cast inUnits_snd_pos hden _ _)]
  norm_cast

theorem fitsUnit_unitExponent (hnum : num ≠ 0) (hden : 0 < den) :
    FitsUnit (unitExponent num den) (num / den) := by
  obtain ⟨hlow, hhigh⟩ := log2_bounds hnum hden.ne'
  have hlow : 2 ^ 52 * (2 : ℚ) ^ ((num.log2 : ℤ) - den.log2 - 53) ≤ num / den := by
    refine le_trans (le_of_eq ?_) hlow
    rw [show (2 : ℚ) ^ 52 = 2 ^ (52 : ℤ) from rfl, ← zpow_add₀ (by norm_num)]
    congr 1
    omega
  have hhigh : (num / den : ℚ) < 2 ^ 54 * (2 : ℚ) ^ ((num.log2 : ℤ) - den.log2 - 53) := by
    refine lt_of_lt_of_eq hhigh ?_
    rw [show (2 : ℚ) ^ 54 = 2 ^ (54 : ℤ) from rfl, ← zpow_add₀ (by norm_num)]
    congr 1
    omega
  unfold unitExponent
  simp only [inUnits_div_lt_iff hden]
  split
  · next hlt =>
    refine ⟨le_max_left _ _, hlt, ?_⟩
    rcases max_choice minExponent ((num.log2 : ℤ) - den.log2 - precision) with hmax | hmax
    · exact .inl hmax
    · rw [hmax]
      exact .inr hlow
  · next hge =>
    have hle : (2 : ℚ) ^ ((num.log2 : ℤ) - den.log2 - 53) ≤
        2 ^ max minExponent ((num.log2 : ℤ) - den.log2 - precision) :=
      two_zpow_le (le_max_right _ _)
    refine ⟨?_, ?_, .inr ?_⟩
    · exact (le_max_left _ _).trans (le_add_of_nonneg_right zero_le_one)
    · rw [two_zpow_succ]
      linarith
    · rw [two_zpow_succ]
      linarith

/-! ## Rounding to a natural number -/

/-- `x` is rounded to `m`, from half way to a neighbour only if `m` is even. -/
structure RoundsToNat (m : ℕ) (x : ℚ) : Prop where
  low_le : m - 1 / 2 ≤ x
  le_high : x ≤ m + 1 / 2
  isEven : x = m - 1 / 2 ∨ x = m + 1 / 2 → m % 2 = 0

theorem roundDiv_bounds (num : ℕ) (hden : 0 < den) :
    2 * (roundDiv num den * den) ≤ 2 * num + den ∧ 2 * num ≤ 2 * (roundDiv num den * den) + den ∧
      (2 * (roundDiv num den * den) = 2 * num + den ∨ 2 * num = 2 * (roundDiv num den * den) + den →
        roundDiv num den % 2 = 0) := by
  have hsplit := Nat.div_add_mod' num den
  have hleft := Nat.mod_lt num hden
  unfold roundDiv
  dsimp only
  split
  · next hdown => omega
  · next hup =>
    rw [Nat.add_mul]
    omega

theorem roundsToNat_roundDiv (num : ℕ) (hden : 0 < den) : RoundsToNat (roundDiv num den) (num / den) := by
  obtain ⟨hlow, hhigh, heven⟩ := roundDiv_bounds num hden
  have hden' : (0 : ℚ) < den := by exact_mod_cast hden
  have hlow' : 2 * ((roundDiv num den : ℚ) * den) ≤ 2 * num + den := by exact_mod_cast hlow
  have hhigh' : 2 * (num : ℚ) ≤ 2 * (roundDiv num den * den) + den := by exact_mod_cast hhigh
  refine ⟨?_, ?_, fun hend => heven ?_⟩
  · rw [le_div_iff₀ hden']
    linarith
  · rw [div_le_iff₀ hden']
    linarith
  · rw [div_eq_iff hden'.ne', div_eq_iff hden'.ne'] at hend
    rcases hend with hend | hend
    · refine .inl ?_
      have : 2 * ((roundDiv num den : ℚ) * den) = 2 * num + den := by linarith
      exact_mod_cast this
    · refine .inr ?_
      have : 2 * (num : ℚ) = 2 * (roundDiv num den * den) + den := by linarith
      exact_mod_cast this

/-! ## From natural numbers to values -/

theorem RoundsToNat.natCast_le {k : ℕ} (h : RoundsToNat m q) (hk : k ≤ q) : k ≤ m := by
  by_contra hlt
  have hlt : (m : ℚ) + 1 ≤ k := by exact_mod_cast not_le.1 hlt
  have := h.le_high
  linarith

theorem RoundsToNat.le_natCast {k : ℕ} (h : RoundsToNat m q) (hk : q ≤ k) : m ≤ k := by
  by_contra hlt
  have hlt : (k : ℚ) + 1 ≤ m := by exact_mod_cast not_le.1 hlt
  have := h.low_le
  linarith

/-- What is rounded to a significand in its unit is rounded to the value. Where values below are
twice as dense, nothing from below is counted in this unit. -/
theorem FitsUnit.roundsInto (h : FitsUnit e q) (hm : RoundsToNat m (q / 2 ^ e)) : RoundsInto m e q := by
  have hp := two_zpow_pos e
  have hlow := hm.low_le
  have hhigh := hm.le_high
  have heven := hm.isEven
  rw [le_div_iff₀ hp] at hlow
  rw [div_le_iff₀ hp] at hhigh
  rw [div_eq_iff hp.ne', div_eq_iff hp.ne'] at heven
  by_cases hdense : m = 2 ^ 52 ∧ -1074 < e
  · obtain ⟨rfl, he⟩ := hdense
    have hle : 2 ^ 52 * (2 : ℚ) ^ e ≤ q := h.le.resolve_left he.ne'
    refine ⟨le_trans (mul_le_mul_of_nonneg_right ?_ hp.le) hle, hhigh, fun _ => rfl⟩
    rw [Nat.cast_pow, Nat.cast_ofNat, sub_le_self_iff]
    positivity
  · have hgap : (gapBelow m e / 4 : ℚ) = 1 / 2 := by
      rw [gapBelow, if_neg hdense]
      norm_num
    exact ⟨hgap ▸ hlow, hhigh, hgap ▸ heven⟩

/-- What is rounded to one digit too many is rounded to the first value of the next exponent. -/
theorem FitsUnit.roundsInto_carry (h : FitsUnit e q) (hm : RoundsToNat (2 ^ 53) (q / 2 ^ e)) :
    RoundsInto (2 ^ 52) (e + 1) q := by
  have hp := two_zpow_pos e
  have hlow := hm.low_le
  have hlt := h.lt
  rw [le_div_iff₀ hp] at hlow
  have hgap : gapBelow (2 ^ 52) (e + 1) = 1 := if_pos ⟨rfl, Int.lt_add_one_of_le h.min_le⟩
  refine ⟨?_, ?_, fun _ => rfl⟩
  · rw [hgap, two_zpow_succ]
    push_cast at hlow ⊢
    linarith
  · rw [two_zpow_succ]
    push_cast
    linarith

theorem ofRounded_carry (negative : Bool) (e : ℤ) :
    ofRounded negative (2 ^ 53) e =
      if 971 < e + 1 then infinity negative else finite negative (2 ^ 52) (e + 1) :=
  rfl

theorem ofRounded_of_ne (negative : Bool) (hm : m ≠ 2 ^ 53) (e : ℤ) :
    ofRounded negative m e = if 971 < e then infinity negative else finite negative m e := by
  have hm : ¬m = Nat.pow 2 precision := hm
  simp only [ofRounded, if_neg hm, maxExponent]

theorem FitsUnit.isRounding_carry (hq : 0 ≤ q) (h : FitsUnit e q)
    (hm : RoundsToNat (2 ^ 53) (q / 2 ^ e)) : IsRounding q (ofRounded false (2 ^ 53) e) := by
  have hmin : -1074 ≤ e := h.min_le
  rw [ofRounded_carry]
  split
  · next hmax =>
    -- From half way to the power of two after the largest value on, everything is infinite.
    have hlow := hm.low_le
    rw [le_div_iff₀ (two_zpow_pos e), Nat.cast_pow, Nat.cast_ofNat] at hlow
    refine .tooLarge (le_trans ?_ hlow)
    rw [overflow_eq]
    exact mul_le_mul_of_nonneg_left (two_zpow_le (by omega)) (by norm_num)
  · refine isRounding_of_roundsInto hq ?_ (h.roundsInto_carry hm)
    rw [isCanonical_iff]
    omega

theorem FitsUnit.isRounding (hq : 0 ≤ q) (h : FitsUnit e q) (hm : RoundsToNat m (q / 2 ^ e)) :
    IsRounding q (ofRounded false m e) := by
  have hp := two_zpow_pos e
  have hmin : -1074 ≤ e := h.min_le
  by_cases hcarry : m = 2 ^ 53
  · subst hcarry
    exact h.isRounding_carry hq hm
  have hle : m ≤ 2 ^ 53 := by
    refine hm.le_natCast ?_
    rw [div_le_iff₀ hp]
    exact_mod_cast h.lt.le
  have hfull : e = -1074 ∨ 2 ^ 52 ≤ m := by
    refine h.le.imp_right fun hle => hm.natCast_le ?_
    rw [le_div_iff₀ hp]
    exact_mod_cast hle
  rw [ofRounded_of_ne false hcarry]
  split
  · next hmax =>
    have hpow : 2 * (2 : ℚ) ^ (971 : ℤ) ≤ 2 ^ e := by
      rw [← two_zpow_succ]
      exact two_zpow_le hmax
    have hge : 2 ^ 52 * (2 : ℚ) ^ e ≤ q :=
      h.le.resolve_left fun he => absurd (he ▸ hmax) (by decide)
    have hunit := two_zpow_pos 971
    refine .tooLarge (le_trans ?_ hge)
    rw [overflow_eq]
    generalize (2 : ℚ) ^ (971 : ℤ) = unit at hpow hunit ⊢
    linarith
  · refine isRounding_of_roundsInto hq ?_ (h.roundsInto hm)
    rw [isCanonical_iff]
    omega

/-! ## Quotients -/

theorem isRounding_zero : IsRounding 0 (zero false) := by
  have h := roundsInto_self 0 minExponent
  rw [Nat.cast_zero, zero_mul] at h
  exact isRounding_of_roundsInto le_rfl isCanonical_zero h

/-- The value of a quotient is the one that the quotient is rounded to. -/
theorem isRounding_ofRatio (num : ℕ) (hden : 0 < den) :
    IsRounding (num / den) (ofRatio false num den) := by
  unfold ofRatio
  split
  · next hnum =>
    rw [hnum, Nat.cast_zero, zero_div]
    exact isRounding_zero
  · next hnum =>
    refine (fitsUnit_unitExponent hnum hden).isRounding (by positivity) ?_
    rw [← inUnits_div]
    exact roundsToNat_roundDiv _ (inUnits_snd_pos hden num _)

end ScriptLexer.Binary64
