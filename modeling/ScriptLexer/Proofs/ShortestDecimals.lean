import ScriptLexer.Numeric.Shortest
import ScriptLexer.Proofs.Rounding

/-! # Shortest decimals

The decimal that a value is written with is rounded to the value: every grid point that the search
accepts is, and so is the exact decimal. The comparisons are made on natural numbers; both sides are
the compared rational numbers times one scale. -/

namespace ScriptLexer

namespace Decimal

/-- The number that a decimal stands for. -/
def toRat (d : Decimal) : ℚ :=
  d.digits * 10 ^ d.exponent

theorem toRat_stripped (d : Decimal) : d.stripped.toRat = d.toRat := by
  fun_induction stripped d with
  | case1 d h ih =>
    have hdigits : (d.digits : ℚ) = 10 * (d.digits / 10 : ℕ) := by
      exact_mod_cast (Nat.mul_div_cancel' (Nat.dvd_of_mod_eq_zero h.2)).symm
    rw [ih, toRat, toRat, hdigits, zpow_add_one₀ (by norm_num)]
    ring
  | case2 => rfl

/-- Both factors are the power that they are for, times one scale. -/
theorem exists_scale (i j : ℤ) : ∃ s : ℚ, 0 < s ∧
    (scales i j).1 = (10 : ℚ) ^ i * s ∧ (scales i j).2 = (2 : ℚ) ^ j * s := by
  refine ⟨2 ^ (-j).toNat * 10 ^ (-i).toNat, by positivity, ?_, ?_⟩
  · rw [Binary64.zpow_eq_div (by norm_num)]
    simp only [scales, Nat.pow_eq]
    push_cast
    field_simp
  · rw [Binary64.zpow_eq_div (by norm_num)]
    simp only [scales, Nat.pow_eq]
    push_cast
    field_simp

end Decimal

namespace Binary64

variable {m : ℕ} {e i : ℤ} {d : Decimal}

/-- The scale at which the value is compared, counted in quarters of its last place. -/
theorem exists_quarter_scale (e i : ℤ) : ∃ s : ℚ, 0 < s ∧
    ((Decimal.scales i (e - 2)).1 : ℚ) = 10 ^ i * s ∧
    ((Decimal.scales i (e - 2)).2 : ℚ) = 2 ^ e / 4 * s := by
  obtain ⟨s, hs, hten, htwo⟩ := Decimal.exists_scale i (e - 2)
  refine ⟨s, hs, hten, ?_⟩
  rw [htwo, zpow_sub₀ (by norm_num)]
  norm_num

/-- The accepted decimals are those that are rounded to the value. -/
theorem roundsTo_iff (hm : 0 < m) : roundsTo m e d = true ↔ RoundsInto m e d.toRat := by
  obtain ⟨s, hs, hten, htwo⟩ := exists_quarter_scale e d.exponent
  unfold roundsTo
  generalize Decimal.scales d.exponent (e - 2) = scale at hten htwo ⊢
  obtain ⟨ten, two⟩ := scale
  -- The three compared numbers, of which the difference loses nothing for a positive value.
  have hlow : (((4 * m - gapBelow m e) * two : ℕ) : ℚ) = (m - gapBelow m e / 4) * 2 ^ e * s := by
    have hreach : gapBelow m e ≤ 4 * m := by
      have := gapBelow_le_two m e
      omega
    rw [Nat.cast_mul, htwo, Nat.cast_sub hreach]
    push_cast
    ring
  have hpoint : ((d.digits * ten : ℕ) : ℚ) = d.toRat * s := by
    rw [Nat.cast_mul, hten, Decimal.toRat]
    ring
  have hhigh : (((4 * m + 2) * two : ℕ) : ℚ) = (m + 1 / 2) * 2 ^ e * s := by
    rw [Nat.cast_mul, htwo]
    push_cast
    ring
  change (if m % 2 = 0 then
      decide ((4 * m - gapBelow m e) * two ≤ d.digits * ten) &&
        decide (d.digits * ten ≤ (4 * m + 2) * two)
    else
      decide ((4 * m - gapBelow m e) * two < d.digits * ten) &&
        decide (d.digits * ten < (4 * m + 2) * two)) = true ↔ _
  split
  · next heven =>
    rw [Bool.and_eq_true, decide_eq_true_iff, decide_eq_true_iff, ← Nat.cast_le (α := ℚ),
      ← Nat.cast_le (α := ℚ), hlow, hpoint, hhigh, mul_le_mul_iff_of_pos_right hs,
      mul_le_mul_iff_of_pos_right hs]
    exact ⟨fun h => ⟨h.1, h.2, fun _ => heven⟩, fun h => ⟨h.low_le, h.le_high⟩⟩
  · next hodd =>
    rw [Bool.and_eq_true, decide_eq_true_iff, decide_eq_true_iff, ← Nat.cast_lt (α := ℚ),
      ← Nat.cast_lt (α := ℚ), hlow, hpoint, hhigh, mul_lt_mul_iff_of_pos_right hs,
      mul_lt_mul_iff_of_pos_right hs]
    constructor
    · exact fun h => roundsInto_of_lt h.1 h.2
    · intro h
      have hends := not_or.1 (mt h.isEven hodd)
      exact ⟨lt_of_le_of_ne h.low_le (Ne.symm hends.1), lt_of_le_of_ne h.le_high hends.2⟩

/-! ## Grids -/

theorem ten_zpow_pos (i : ℤ) : (0 : ℚ) < 10 ^ i :=
  zpow_pos (by norm_num) i

/-- The last point of the grid of multiples of ten to the `i` that is not above the value. -/
def gridBelow (m : ℕ) (e i : ℤ) : ℕ :=
  4 * m * (Decimal.scales i (e - 2)).2 / (Decimal.scales i (e - 2)).1

/-- The value is divided by the distance of the grid points. -/
theorem gridBelow_bounds (m : ℕ) (e i : ℤ) : gridBelow m e i * (10 : ℚ) ^ i ≤ m * 2 ^ e ∧
    m * (2 : ℚ) ^ e < (gridBelow m e i + 1 : ℕ) * 10 ^ i := by
  obtain ⟨s, hs, hten, htwo⟩ := exists_quarter_scale e i
  unfold gridBelow
  generalize Decimal.scales i (e - 2) = scale at hten htwo ⊢
  obtain ⟨ten, two⟩ := scale
  dsimp only at hten htwo ⊢
  have hvalue : ((4 * m * two : ℕ) : ℚ) = m * 2 ^ e * s := by
    rw [Nat.cast_mul, htwo]
    push_cast
    ring
  have hpos : 0 < ten := by
    rw [← Nat.cast_pos (α := ℚ), hten]
    exact mul_pos (ten_zpow_pos i) hs
  constructor
  · have hle : 4 * m * two / ten * ten ≤ 4 * m * two := Nat.div_mul_le_self _ _
    rwa [← Nat.cast_le (α := ℚ), hvalue, Nat.cast_mul, hten, ← mul_assoc,
      mul_le_mul_iff_of_pos_right hs] at hle
  · have hlt : 4 * m * two < (4 * m * two / ten + 1) * ten := by
      rw [Nat.mul_comm _ ten]
      exact Nat.lt_mul_div_succ _ hpos
    rwa [← Nat.cast_lt (α := ℚ), hvalue, Nat.cast_mul, hten, ← mul_assoc,
      mul_lt_mul_iff_of_pos_right hs] at hlt

/-- What is found on a grid: nothing if neither of the points around the value is accepted, and
otherwise one that is, which is the nearer one if both are. -/
theorem onGrid?_cases (m : ℕ) (e i : ℤ) :
    (onGrid? m e i = none ∧ roundsTo m e ⟨gridBelow m e i, i⟩ = false ∧
        roundsTo m e ⟨gridBelow m e i + 1, i⟩ = false) ∨
      (onGrid? m e i = some ⟨gridBelow m e i, i⟩ ∧ roundsTo m e ⟨gridBelow m e i, i⟩ = true ∧
        (roundsTo m e ⟨gridBelow m e i + 1, i⟩ = true →
          2 * (m * (2 : ℚ) ^ e) ≤ (2 * gridBelow m e i + 1) * 10 ^ i)) ∨
      (onGrid? m e i = some ⟨gridBelow m e i + 1, i⟩ ∧
        roundsTo m e ⟨gridBelow m e i + 1, i⟩ = true ∧
        (roundsTo m e ⟨gridBelow m e i, i⟩ = true →
          (2 * gridBelow m e i + 1) * (10 : ℚ) ^ i ≤ 2 * (m * 2 ^ e))) := by
  obtain ⟨s, hs, hten, htwo⟩ := exists_quarter_scale e i
  unfold onGrid? gridBelow
  generalize Decimal.scales i (e - 2) = scale at hten htwo ⊢
  obtain ⟨ten, two⟩ := scale
  dsimp only at hten htwo ⊢
  generalize 4 * m * two / ten = below
  have hvalue : ((8 * m * two : ℕ) : ℚ) = 2 * (m * 2 ^ e) * s := by
    rw [Nat.cast_mul, htwo]
    push_cast
    ring
  have hmiddle : (((2 * below + 1) * ten : ℕ) : ℚ) = (2 * below + 1) * 10 ^ i * s := by
    rw [Nat.cast_mul, hten]
    push_cast
    ring
  cases hb : roundsTo m e ⟨below, i⟩ with
  | false =>
    cases ha : roundsTo m e ⟨below + 1, i⟩ with
    | false => exact .inl ⟨rfl, rfl, rfl⟩
    | true => exact .inr (.inr ⟨rfl, rfl, fun h => by cases h⟩)
  | true =>
    cases ha : roundsTo m e ⟨below + 1, i⟩ with
    | false => exact .inr (.inl ⟨rfl, rfl, fun h => by cases h⟩)
    | true =>
      dsimp only
      split
      · next hnear =>
        have hle := hnear.elim le_of_lt fun h => h.1.le
        rw [← Nat.cast_le (α := ℚ), hvalue, hmiddle, mul_le_mul_iff_of_pos_right hs] at hle
        exact .inr (.inl ⟨rfl, rfl, fun _ => hle⟩)
      · next hfar =>
        have hle := not_lt.1 (not_or.1 hfar).1
        rw [← Nat.cast_le (α := ℚ), hvalue, hmiddle, mul_le_mul_iff_of_pos_right hs] at hle
        exact .inr (.inr ⟨rfl, rfl, fun _ => hle⟩)

theorem eq_of_onGrid? (h : onGrid? m e i = some d) :
    (d = ⟨gridBelow m e i, i⟩ ∨ d = ⟨gridBelow m e i + 1, i⟩) ∧ roundsTo m e d = true := by
  rcases onGrid?_cases m e i with ⟨hnone, -⟩ | ⟨hsome, hr, -⟩ | ⟨hsome, hr, -⟩
  · rw [hnone] at h
    cases h
  · rw [hsome] at h
    cases h
    exact ⟨.inl rfl, hr⟩
  · rw [hsome] at h
    cases h
    exact ⟨.inr rfl, hr⟩

/-! ## The written decimal -/

theorem toRat_exactDecimal (m : ℕ) (e : ℤ) : (exactDecimal m e).toRat = m * 2 ^ e := by
  simp only [exactDecimal, Decimal.toRat, Nat.pow_eq]
  push_cast
  rcases le_total 0 e with he | he
  · rw [min_eq_right he, Int.toNat_eq_zero.2 (neg_nonpos.2 he), ← zpow_natCast _ e.toNat,
      Int.toNat_of_nonneg he]
    simp
  · rw [min_eq_left he, Int.toNat_eq_zero.2 he, ← zpow_natCast _ (-e).toNat,
      Int.toNat_of_nonneg (neg_nonneg.2 he), show (10 : ℚ) = 2 * 5 by norm_num, mul_zpow, zpow_neg]
    have : (5 : ℚ) ^ e ≠ 0 := zpow_ne_zero _ (by norm_num)
    field_simp

/-- The decimal that a positive value is written with is rounded to the value. -/
theorem roundsInto_shortestDecimal (hm : 0 < m) (e : ℤ) :
    RoundsInto m e (shortestDecimal m e).toRat := by
  unfold shortestDecimal
  dsimp only
  rw [Decimal.toRat_stripped]
  generalize hf : List.findSome? _ _ = found
  cases found with
  | none =>
    rw [Option.getD_none, toRat_exactDecimal]
    exact roundsInto_self m e
  | some d =>
    obtain ⟨k, -, hk⟩ := List.exists_of_findSome?_eq_some hf
    exact (roundsTo_iff hm).1 (eq_of_onGrid? hk).2

/-- A quotient that is the written decimal of a value is rounded to that value. -/
theorem IsRounding.eq_of_shortestDecimal (hm : 0 < m) (h : IsCanonical m e) {v : Binary64}
    (hv : IsRounding (shortestDecimal m e).toRat v) : v = finite false m e := by
  have hr := roundsInto_shortestDecimal hm e
  exact hv.eq (isRounding_of_roundsInto (hr.pos hm).le h hr)

end Binary64

end ScriptLexer
