import ScriptLexer.Proofs.ShortestDecimals
import ScriptLexer.Text.Basic

/-! # The search for the shortest decimal

The numbers that are rounded to a value make up an interval with the value in it. So if any point of a
grid is in the interval, one of the two points around the value is, and the search stops at the
coarsest grid that has such a point. A decimal that is rounded to the value can be replaced by a point
of the grid that its number of digits asks for, as near to the value and rounded to it too; the first
grid has the powers of ten around the value for decimals beyond them. So no decimal with fewer digits
is rounded to the value, and none with as many is nearer. -/

namespace ScriptLexer

namespace Decimal

theorem digits_stripped_le (d : Decimal) : d.stripped.digits ≤ d.digits := by
  fun_induction stripped d with
  | case1 d h ih => exact ih.trans (Nat.div_le_self _ _)
  | case2 => exact le_rfl

/-- A power of ten loses a zero. -/
theorem digits_stripped_lt {d : Decimal} {k : ℕ} (h : d.digits ≤ 10 ^ (k + 1)) :
    d.stripped.digits < 10 ^ (k + 1) := by
  rcases h.lt_or_eq with hlt | heq
  · exact (digits_stripped_le d).trans_lt hlt
  · have hpos : 0 < 10 ^ k := Nat.pow_pos (by decide)
    have hdiv : d.digits / 10 = 10 ^ k := by
      rw [heq, Nat.pow_succ, Nat.mul_div_cancel _ (by decide)]
    rw [stripped, if_pos ⟨by omega, by omega⟩]
    have := digits_stripped_le ⟨d.digits / 10, d.exponent + 1⟩
    dsimp only at this
    omega

/-- The number of digits of a decimal. -/
def digitCount (d : Decimal) : ℕ :=
  (Text.ofNat d.digits).length

theorem digitCount_pos (d : Decimal) : 0 < d.digitCount :=
  Nat.length_toDigits_pos

theorem digitCount_le_iff (d : Decimal) (k : ℕ) :
    d.digitCount ≤ k + 1 ↔ d.digits < 10 ^ (k + 1) :=
  Nat.length_toDigits_le_iff (by decide) (Nat.succ_pos k)

theorem toRat_nonneg (d : Decimal) : 0 ≤ d.toRat :=
  mul_nonneg (Nat.cast_nonneg _) (zpow_nonneg (by norm_num) _)

end Decimal

namespace Binary64

variable {m n : ℕ} {e i : ℤ} {d : Decimal}

/-! ## Grids -/

/-- A grid with a point that is rounded to the value is not passed over, and what is found is no
farther from the value. -/
theorem exists_onGrid? (hm : 0 < m) (h : RoundsInto m e (n * 10 ^ i)) :
    ∃ d, onGrid? m e i = some d ∧
      |d.toRat - m * 2 ^ e| ≤ |n * (10 : ℚ) ^ i - m * 2 ^ e| := by
  obtain ⟨hbelow, habove⟩ := gridBelow_bounds m e i
  have hself := roundsInto_self m e
  have hp := ten_zpow_pos i
  push_cast at habove
  rcases Nat.lt_or_ge (gridBelow m e i) n with hn | hn
  · have hle : (gridBelow m e i + 1) * (10 : ℚ) ^ i ≤ n * 10 ^ i :=
      mul_le_mul_of_nonneg_right (by exact_mod_cast hn) hp.le
    have hr : roundsTo m e ⟨gridBelow m e i + 1, i⟩ = true :=
      (roundsTo_iff hm).2 (hself.between h (by push_cast [Decimal.toRat]; exact habove.le)
        (by push_cast [Decimal.toRat]; exact hle))
    rw [abs_of_nonneg (by linarith)]
    rcases onGrid?_cases m e i with ⟨-, -, hno⟩ | ⟨hsome, -, hmiddle⟩ | ⟨hsome, -, -⟩
    · rw [hr] at hno
      cases hno
    · refine ⟨_, hsome, ?_⟩
      have := hmiddle hr
      rw [Decimal.toRat, abs_of_nonpos (by linarith)]
      linarith
    · refine ⟨_, hsome, ?_⟩
      push_cast [Decimal.toRat]
      rw [abs_of_nonneg (by linarith)]
      linarith
  · have hle : n * (10 : ℚ) ^ i ≤ gridBelow m e i * 10 ^ i :=
      mul_le_mul_of_nonneg_right (by exact_mod_cast hn) hp.le
    have hr : roundsTo m e ⟨gridBelow m e i, i⟩ = true :=
      (roundsTo_iff hm).2 (h.between hself hle hbelow)
    rw [abs_of_nonpos (by linarith)]
    rcases onGrid?_cases m e i with ⟨-, hno, -⟩ | ⟨hsome, -, -⟩ | ⟨hsome, -, hmiddle⟩
    · rw [hr] at hno
      cases hno
    · refine ⟨_, hsome, ?_⟩
      rw [Decimal.toRat, abs_of_nonpos (by linarith)]
      linarith
    · refine ⟨_, hsome, ?_⟩
      have := hmiddle hr
      push_cast [Decimal.toRat]
      rw [abs_of_nonneg (by linarith)]
      linarith

/-! ## The first digit -/

theorem ten_pow_length_le (hn : n ≠ 0) : (10 : ℚ) ^ ((Nat.toDigits 10 n).length - 1 : ℤ) ≤ n := by
  obtain ⟨k, hk⟩ := Nat.exists_eq_succ_of_ne_zero (Nat.length_toDigits_pos (b := 10) (n := n)).ne'
  have hle : 10 ^ k ≤ n := by
    rcases Nat.eq_zero_or_pos k with rfl | hpos
    · exact Nat.pos_of_ne_zero hn
    · by_contra hlt
      have := (Nat.length_toDigits_le_iff (by decide) hpos).2 (not_le.1 hlt)
      omega
  rw [hk, Nat.cast_succ, add_sub_cancel_right, zpow_natCast]
  exact_mod_cast hle

theorem lt_ten_pow_length (n : ℕ) : n < 10 ^ (Nat.toDigits 10 n).length :=
  (Nat.length_toDigits_le_iff (by decide) Nat.length_toDigits_pos).1 le_rfl

/-- The decimal exponent of the first digit. -/
theorem leadingExponent_bounds {num den : ℕ} (hnum : num ≠ 0) (hden : den ≠ 0) :
    (10 : ℚ) ^ leadingExponent num den ≤ num / den ∧
      (num / den : ℚ) < 10 ^ (leadingExponent num den + 1) := by
  have hlt : ∀ k : ℕ, (k : ℚ) < 10 ^ (((Nat.toDigits 10 k).length : ℤ) - 1 + 1) := by
    intro k
    rw [sub_add_cancel, zpow_natCast]
    exact_mod_cast lt_ten_pow_length k
  obtain ⟨hlow, hhigh⟩ := div_bounds (by norm_num) (ten_pow_length_le hnum) (hlt num)
    (ten_pow_length_le hden) (hlt den)
  rw [sub_sub_sub_cancel_right] at hlow hhigh
  unfold leadingExponent
  dsimp only
  generalize ((Nat.toDigits 10 num).length : ℤ) - (Nat.toDigits 10 den).length = high at hlow hhigh ⊢
  have hiff : den * Nat.pow 10 high.toNat ≤ num * Nat.pow 10 (-high).toNat ↔
      (10 : ℚ) ^ high ≤ num / den := by
    rw [zpow_eq_div (by norm_num), div_le_div_iff₀ (by positivity) (by positivity), Nat.pow_eq,
      Nat.pow_eq, mul_comm den]
    norm_cast
  split
  · next hle => exact ⟨hiff.1 hle, hhigh⟩
  · next hgt =>
    rw [sub_add_cancel]
    exact ⟨hlow, not_le.1 (mt hiff.2 hgt)⟩

/-- The decimal exponent of the first digit of a value. -/
def firstExponent (m : ℕ) (e : ℤ) : ℤ :=
  leadingExponent (m * Nat.pow 2 e.toNat) (Nat.pow 2 (-e).toNat)

theorem firstExponent_bounds (hm : 0 < m) (e : ℤ) :
    (10 : ℚ) ^ firstExponent m e ≤ m * 2 ^ e ∧ m * (2 : ℚ) ^ e < 10 ^ (firstExponent m e + 1) := by
  have hvalue : ((m * Nat.pow 2 e.toNat : ℕ) : ℚ) / (Nat.pow 2 (-e).toNat : ℕ) = m * 2 ^ e := by
    rw [zpow_eq_div (by norm_num), Nat.pow_eq, Nat.pow_eq]
    push_cast
    ring
  have hpos : ∀ k : ℕ, 0 < Nat.pow 2 k := fun k => Nat.pow_pos (by decide)
  rw [← hvalue]
  exact leadingExponent_bounds (Nat.mul_pos hm (hpos _)).ne' (hpos _).ne'

/-! ## Seventeen digits -/

theorem ten_zpow_sub (i : ℤ) (k : ℕ) : (10 : ℚ) ^ (i - k) * 10 ^ k = 10 ^ i := by
  rw [← zpow_natCast, ← zpow_add₀ (by norm_num), sub_add_cancel]

/-- At seventeen digits the points of the grid are closer to each other than the interval of the value
is wide. -/
theorem grid_lt_interval (h : IsCanonical m e) (hi : (10 : ℚ) ^ i * 10 ^ 16 ≤ m * 2 ^ e) :
    (10 : ℚ) ^ i < (gapBelow m e / 4 + 1 / 2) * 2 ^ e := by
  have hp := two_zpow_pos e
  rw [isCanonical_iff] at h
  unfold gapBelow
  split
  · next hdense =>
    rw [hdense.1] at hi
    push_cast at hi ⊢
    linarith
  · have hm : (m : ℚ) < 2 ^ 53 := by exact_mod_cast h.1
    have := mul_lt_mul_of_pos_right hm hp
    push_cast
    linarith

theorem exists_roundsInto_grid (h : IsCanonical m e)
    (hi : (10 : ℚ) ^ i * 10 ^ 16 ≤ m * 2 ^ e) : ∃ n : ℕ, RoundsInto m e (n * 10 ^ i) := by
  obtain ⟨hbelow, habove⟩ := gridBelow_bounds m e i
  have hp := two_zpow_pos e
  have hgrid := grid_lt_interval h hi
  rcases lt_or_ge ((m - gapBelow m e / 4) * (2 : ℚ) ^ e) (gridBelow m e i * 10 ^ i) with hlow | hlow
  · exact ⟨gridBelow m e i, roundsInto_of_lt hlow (by linarith)⟩
  · push_cast at habove
    refine ⟨gridBelow m e i + 1, roundsInto_of_lt ?_ ?_⟩
    · push_cast
      have := mul_pos (cast_gapBelow_pos m e) hp
      linarith
    · push_cast
      linarith

/-! ## The search -/

theorem exists_first_of_findSome? {α : Type} {f : ℕ → Option α} {x : α}
    (h : (List.range n).findSome? f = some x) : ∃ k < n, f k = some x ∧ ∀ j < k, f j = none := by
  induction n with
  | zero => cases h
  | succ n ih =>
    rw [List.range_succ, List.findSome?_append] at h
    cases hf : (List.range n).findSome? f with
    | some y =>
      rw [hf] at h
      cases h
      obtain ⟨k, hk, hfk, hnone⟩ := ih hf
      exact ⟨k, Nat.lt_succ_of_lt hk, hfk, hnone⟩
    | none =>
      rw [hf, Option.none_or] at h
      have hfn : f n = some x := by simpa using h
      exact ⟨n, Nat.lt_succ_self n, hfn, fun j hj =>
        List.findSome?_eq_none_iff.1 hf j (List.mem_range.2 hj)⟩

/-- The shortest decimal is on the first grid that is not passed over. -/
theorem exists_shortestDecimal_eq (hm : 0 < m) (h : IsCanonical m e) :
    ∃ k < 17, ∃ d, onGrid? m e (firstExponent m e - (k : ℕ)) = some d ∧
      (∀ j < k, onGrid? m e (firstExponent m e - (j : ℕ)) = none) ∧
      shortestDecimal m e = d.stripped := by
  have hi : (10 : ℚ) ^ (firstExponent m e - (16 : ℕ)) * 10 ^ 16 ≤ m * 2 ^ e :=
    (ten_zpow_sub _ 16).trans_le (firstExponent_bounds hm e).1
  obtain ⟨n, hn⟩ := exists_roundsInto_grid h hi
  obtain ⟨d, hd, -⟩ := exists_onGrid? hm hn
  cases hf : (List.range 17).findSome? fun (k : ℕ) => onGrid? m e (firstExponent m e - (k : ℤ)) with
  | none =>
    have := List.findSome?_eq_none_iff.1 hf 16 (by decide)
    rw [hd] at this
    cases this
  | some d =>
    obtain ⟨k, hk, hd, hnone⟩ := exists_first_of_findSome? hf
    refine ⟨k, hk, d, hd, hnone, ?_⟩
    rw [shortestDecimal, show leadingExponent _ _ = firstExponent m e from rfl, hf, Option.getD_some]

/-! ## Competitors -/

/-- A decimal of `k + 1` digits that is rounded to the value has a point of the grid that the search
looks at after `k` others, no farther from the value and rounded to it as well. It is the decimal
itself, or the power of ten between it and the value. -/
theorem RoundsInto.exists_grid_point (hm : 0 < m) {k : ℕ} (hk : d.digits < 10 ^ (k + 1))
    (h : RoundsInto m e d.toRat) :
    ∃ n : ℕ, RoundsInto m e (n * 10 ^ (firstExponent m e - k)) ∧
      |n * (10 : ℚ) ^ (firstExponent m e - k) - m * 2 ^ e| ≤ |d.toRat - m * 2 ^ e| := by
  obtain ⟨hlow, hhigh⟩ := firstExponent_bounds hm e
  have hself := roundsInto_self m e
  generalize firstExponent m e = first at hlow hhigh ⊢
  have hpower : ((10 ^ k : ℕ) : ℚ) * 10 ^ (first - k) = 10 ^ first := by
    rw [Nat.cast_pow, Nat.cast_ofNat, mul_comm, ten_zpow_sub]
  have hnext : ((10 ^ (k + 1) : ℕ) : ℚ) * 10 ^ (first - k) = 10 ^ (first + 1) := by
    rw [Nat.pow_succ, Nat.cast_mul, mul_right_comm, hpower, zpow_add_one₀ (by norm_num)]
    rfl
  rcases lt_or_ge d.toRat (10 ^ first) with hd | hd
  · refine ⟨10 ^ k, ?_, ?_⟩
    · rw [hpower]
      exact h.between hself hd.le hlow
    · rw [hpower, abs_of_nonpos (by linarith), abs_of_nonpos (by linarith)]
      linarith
  rcases le_or_gt (10 ^ (first + 1)) d.toRat with hd' | hd'
  · refine ⟨10 ^ (k + 1), ?_, ?_⟩
    · rw [hnext]
      exact hself.between h hhigh.le hd'
    · rw [hnext, abs_of_nonneg (by linarith), abs_of_nonneg (by linarith)]
      linarith
  -- A decimal with these digits that begins where the value does is a multiple of the last place.
  have hexponent : first - k ≤ d.exponent := by
    have hlt : (10 : ℚ) ^ first < 10 ^ ((k : ℤ) + 1 + d.exponent) := by
      rw [zpow_add₀ (by norm_num)]
      refine hd.trans_lt (mul_lt_mul_of_pos_right ?_ (ten_zpow_pos _))
      exact_mod_cast hk
    have := (zpow_lt_zpow_iff_right₀ (by norm_num)).1 hlt
    omega
  have hpoint : ((d.digits * 10 ^ (d.exponent - (first - k)).toNat : ℕ) : ℚ) * 10 ^ (first - k) =
      d.toRat := by
    rw [Decimal.toRat, Nat.cast_mul, Nat.cast_pow, Nat.cast_ofNat, mul_assoc, ← zpow_natCast,
      ← zpow_add₀ (by norm_num), Int.toNat_of_nonneg (by omega), sub_add_cancel]
  exact ⟨_, hpoint ▸ h, by rw [hpoint]⟩

theorem digits_le_of_onGrid? (hm : 0 < m) {k : ℕ}
    (h : onGrid? m e (firstExponent m e - k) = some d) : d.digits ≤ 10 ^ (k + 1) := by
  have hhigh := (firstExponent_bounds hm e).2
  have hbelow := (gridBelow_bounds m e (firstExponent m e - k)).1
  have hlt : gridBelow m e (firstExponent m e - k) < 10 ^ (k + 1) := by
    have hle : gridBelow m e (firstExponent m e - k) * (10 : ℚ) ^ (firstExponent m e - k) <
        10 ^ (k + 1) * 10 ^ (firstExponent m e - k) := by
      refine hbelow.trans_lt (hhigh.trans_eq ?_)
      rw [pow_succ, mul_right_comm, mul_comm (10 ^ k), ten_zpow_sub, zpow_add_one₀ (by norm_num)]
    exact_mod_cast lt_of_mul_lt_mul_right hle (ten_zpow_pos _).le
  rcases (eq_of_onGrid? h).1 with rfl | rfl
  · exact hlt.le
  · exact hlt

/-- Of all decimals that are rounded to a value, the one it is written with has the fewest digits, and
no other with as many is nearer to the value. -/
theorem shortestDecimal_is_shortest (hm : 0 < m) (h : IsCanonical m e) :
    IsRounding (shortestDecimal m e).toRat (finite false m e) ∧
    ∀ d : Decimal, IsRounding d.toRat (finite false m e) →
      (shortestDecimal m e).digitCount ≤ d.digitCount ∧
      (d.digitCount = (shortestDecimal m e).digitCount →
        |(shortestDecimal m e).toRat - m * 2 ^ e| ≤ |d.toRat - m * 2 ^ e|) := by
  have hr := roundsInto_shortestDecimal hm e
  obtain ⟨k, -, found, hfound, hnone, heq⟩ := exists_shortestDecimal_eq hm h
  have hcount : (shortestDecimal m e).digitCount ≤ k + 1 := by
    rw [heq, Decimal.digitCount_le_iff]
    exact Decimal.digits_stripped_lt (digits_le_of_onGrid? hm hfound)
  refine ⟨isRounding_of_roundsInto (hr.pos hm).le h hr, fun d hd => ?_⟩
  have hd := (isRounding_finite_iff d.toRat_nonneg h).1 hd
  obtain ⟨j, hj⟩ := Nat.exists_eq_succ_of_ne_zero d.digitCount_pos.ne'
  have hdigits : d.digits < 10 ^ (j + 1) := (d.digitCount_le_iff j).1 hj.le
  obtain ⟨n, hn, hnear⟩ := hd.exists_grid_point hm hdigits
  obtain ⟨other, hother, hle⟩ := exists_onGrid? hm hn
  -- The search does not go on behind the grid that the competitor's number of digits asks for.
  have hkj : k ≤ j := by
    by_contra hlt
    rw [hnone j (not_le.1 hlt)] at hother
    cases hother
  refine ⟨by omega, fun hsame => ?_⟩
  obtain rfl : k = j := by omega
  rw [hfound] at hother
  cases hother
  rw [heq, Decimal.toRat_stripped]
  exact hle.trans hnear

end Binary64

end ScriptLexer
