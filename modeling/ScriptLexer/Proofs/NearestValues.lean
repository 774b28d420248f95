import ScriptLexer.Numeric.Binary64
import Mathlib.Algebra.Order.Field.Power
import Mathlib.Algebra.Order.Ring.Rat
import Mathlib.Tactic.FieldSimp
import Mathlib.Tactic.Linarith
import Mathlib.Tactic.Positivity
import Mathlib.Tactic.Ring

/-! # Nearest values

What it is to be the binary64 value nearest to a rational number, said over the values of the format
alone: no finite value is nearer, and where another one is as near the significand is even. Such a
value is unique, and larger numbers have no smaller ones. The numbers that are nearest to a given
value make up an interval, from half way to the value below it to half way to the one above. -/

namespace ScriptLexer.Binary64

/-! ## Values as numbers -/

/-- The finite values of the format. -/
def IsFinite : Binary64 → Prop
  | finite _ m e => IsCanonical m e
  | _ => False

/-- The number that a finite value stands for. -/
def toRat : Binary64 → ℚ
  | finite negative m e => (if negative then -1 else 1) * (m * 2 ^ e)
  | _ => 0

def HasEvenSignificand : Binary64 → Prop
  | finite _ m _ => m % 2 = 0
  | _ => True

/-- The order of the numbers and infinities that values stand for. What is not a number is in no
order. -/
def AtMost : Binary64 → Binary64 → Prop
  | nan, _ => False
  | _, nan => False
  | infinity true, _ => True
  | _, infinity false => True
  | infinity false, _ => False
  | _, infinity true => False
  | a, b => a.toRat ≤ b.toRat

/-- The finite value `v` is nearest to `q`, and has an even significand if it shares that with
another. -/
structure Nearest (q : ℚ) (v : Binary64) : Prop where
  isFinite : v.IsFinite
  dist_le : ∀ u : Binary64, u.IsFinite → |v.toRat - q| ≤ |u.toRat - q|
  isEven : ∀ u : Binary64, u.IsFinite → u.toRat ≠ v.toRat → |u.toRat - q| = |v.toRat - q| →
    v.HasEvenSignificand

/-- Numbers from here on are rounded to infinity: it is half way from the largest finite value to
the power of two that would come next. -/
def overflow : ℚ :=
  2 ^ 1024 - 2 ^ 970

/-- The value that a number which is not negative is rounded to. -/
inductive IsRounding (q : ℚ) : Binary64 → Prop
  | nearest {m : ℕ} {e : ℤ} : q < overflow → Nearest q (finite false m e) →
      IsRounding q (finite false m e)
  | tooLarge : overflow ≤ q → IsRounding q (infinity false)

variable {m m' : ℕ} {e e' : ℤ} {q q' : ℚ}

theorem isCanonical_iff : IsCanonical m e ↔
    m < 2 ^ 53 ∧ -1074 ≤ e ∧ e ≤ 971 ∧ (e = -1074 ∨ 2 ^ 52 ≤ m) :=
  Iff.rfl

theorem toRat_finite_false (m : ℕ) (e : ℤ) : (finite false m e).toRat = m * 2 ^ e := by
  simp [toRat]

theorem toRat_finite_true (m : ℕ) (e : ℤ) : (finite true m e).toRat = -(m * 2 ^ e) := by
  simp [toRat]

/-! ## Gaps between values -/

theorem two_zpow_pos (e : ℤ) : (0 : ℚ) < 2 ^ e :=
  zpow_pos (by norm_num) e

theorem two_zpow_succ (e : ℤ) : (2 : ℚ) ^ (e + 1) = 2 * 2 ^ e := by
  rw [zpow_add_one₀ (by norm_num), mul_comm]

theorem two_zpow_le (h : e ≤ e') : (2 : ℚ) ^ e ≤ 2 ^ e' :=
  zpow_le_zpow_right₀ (by norm_num) h

/-- Half the gap below a value in quarters of its last place. Below the least significand of an
exponent values are twice as dense. -/
def gapBelow (m : ℕ) (e : ℤ) : ℕ :=
  if m = 2 ^ 52 ∧ -1074 < e then 1 else 2

theorem gapBelow_pos (m : ℕ) (e : ℤ) : 0 < gapBelow m e := by
  unfold gapBelow
  split <;> decide

theorem gapBelow_le_two (m : ℕ) (e : ℤ) : gapBelow m e ≤ 2 := by
  unfold gapBelow
  split <;> decide

theorem cast_gapBelow_pos (m : ℕ) (e : ℤ) : (0 : ℚ) < gapBelow m e := by
  exact_mod_cast gapBelow_pos m e

theorem cast_gapBelow_le_two (m : ℕ) (e : ℤ) : (gapBelow m e : ℚ) ≤ 2 := by
  exact_mod_cast gapBelow_le_two m e

/-- Between a value and the next ones there are no others. -/
theorem eq_or_gap (h : IsCanonical m e) (h' : IsCanonical m' e') :
    (m' = m ∧ e' = e) ∨ (m + 1) * (2 : ℚ) ^ e ≤ m' * 2 ^ e' ∨
      m' * (2 : ℚ) ^ e' ≤ (m - gapBelow m e / 2) * 2 ^ e := by
  rw [isCanonical_iff] at h h'
  have hp := two_zpow_pos e
  rcases lt_trichotomy e' e with he | he | he
  · -- A smaller exponent: `m` has all its digits, and `m'` is below the least significand that has.
    have hm : (2 : ℚ) ^ 52 ≤ m := by exact_mod_cast (show 2 ^ 52 ≤ m by omega)
    have hm' : (m' : ℚ) ≤ 2 ^ 53 - 1 := by
      have : (m' : ℚ) + 1 ≤ 2 ^ 53 := by exact_mod_cast (show m' + 1 ≤ 2 ^ 53 by omega)
      linarith
    have hpow : 2 * (2 : ℚ) ^ e' ≤ 2 ^ e := by
      rw [← two_zpow_succ]
      exact two_zpow_le (by omega)
    have hle : (m' : ℚ) * 2 ^ e' ≤ (2 ^ 52 - 1 / 2) * 2 ^ e := by
      nlinarith [two_zpow_pos e']
    refine .inr (.inr (hle.trans (mul_le_mul_of_nonneg_right ?_ hp.le)))
    unfold gapBelow
    split
    · push_cast
      linarith
    · next hn =>
      have : (2 : ℚ) ^ 52 + 1 ≤ m := by exact_mod_cast (show 2 ^ 52 + 1 ≤ m by omega)
      push_cast
      linarith
  · subst he
    rcases lt_trichotomy m' m with hm | hm | hm
    · have hle : (m' : ℚ) + 1 ≤ m := by exact_mod_cast hm
      refine .inr (.inr (mul_le_mul_of_nonneg_right ?_ hp.le))
      linarith [cast_gapBelow_le_two m e']
    · exact .inl ⟨hm, rfl⟩
    · have hle : (m : ℚ) + 1 ≤ m' := by exact_mod_cast hm
      exact .inr (.inl (mul_le_mul_of_nonneg_right hle hp.le))
  · -- A larger exponent: `m'` has all its digits, which `m` does not exceed.
    have hm' : (2 : ℚ) ^ 52 ≤ m' := by exact_mod_cast (show 2 ^ 52 ≤ m' by omega)
    have hm : (m : ℚ) + 1 ≤ 2 ^ 53 := by exact_mod_cast (show m + 1 ≤ 2 ^ 53 by omega)
    have hpow : 2 * (2 : ℚ) ^ e ≤ 2 ^ e' := by
      rw [← two_zpow_succ]
      exact two_zpow_le (by omega)
    refine .inr (.inl ?_)
    nlinarith

theorem below_lt (m : ℕ) (e : ℤ) : (m - gapBelow m e / 2) * (2 : ℚ) ^ e < m * 2 ^ e := by
  refine mul_lt_mul_of_pos_right ?_ (two_zpow_pos e)
  linarith [cast_gapBelow_pos m e]

theorem eq_of_mul_eq (h : IsCanonical m e) (h' : IsCanonical m' e')
    (heq : m * (2 : ℚ) ^ e = m' * 2 ^ e') : m = m' ∧ e = e' := by
  have hp := two_zpow_pos e
  rcases eq_or_gap h h' with ⟨rfl, rfl⟩ | habove | hbelow
  · exact ⟨rfl, rfl⟩
  · linarith
  · linarith [below_lt m e]

theorem add_one_mul_le (h : IsCanonical m e) (h' : IsCanonical m' e')
    (hlt : m * (2 : ℚ) ^ e < m' * 2 ^ e') : (m + 1) * (2 : ℚ) ^ e ≤ m' * 2 ^ e' := by
  rcases eq_or_gap h h' with ⟨rfl, rfl⟩ | habove | hbelow
  · exact absurd hlt (lt_irrefl _)
  · exact habove
  · linarith [below_lt m e]

/-! ## The numbers nearest to a value -/

/-- `q` is among the numbers that are rounded to the value `m` times two to the `e`: it lies half way
to the values around it at most, and no nearer to one of them if `m` is odd. -/
structure RoundsInto (m : ℕ) (e : ℤ) (q : ℚ) : Prop where
  low_le : (m - gapBelow m e / 4) * (2 : ℚ) ^ e ≤ q
  le_high : q ≤ (m + 1 / 2) * (2 : ℚ) ^ e
  isEven : q = (m - gapBelow m e / 4) * (2 : ℚ) ^ e ∨ q = (m + 1 / 2) * (2 : ℚ) ^ e → m % 2 = 0

theorem roundsInto_of_lt (hlow : (m - gapBelow m e / 4) * (2 : ℚ) ^ e < q)
    (hhigh : q < (m + 1 / 2) * (2 : ℚ) ^ e) : RoundsInto m e q :=
  ⟨hlow.le, hhigh.le, fun hend => absurd hend (not_or.2 ⟨hlow.ne', hhigh.ne⟩)⟩

theorem roundsInto_self (m : ℕ) (e : ℤ) : RoundsInto m e (m * 2 ^ e) := by
  have hp := two_zpow_pos e
  refine roundsInto_of_lt (mul_lt_mul_of_pos_right ?_ hp) (mul_lt_mul_of_pos_right ?_ hp)
  · linarith [cast_gapBelow_pos m e]
  · linarith

theorem RoundsInto.pos (h : RoundsInto m e q) (hm : 0 < m) : 0 < q := by
  refine lt_of_lt_of_le (mul_pos ?_ (two_zpow_pos e)) h.low_le
  have hm : (1 : ℚ) ≤ m := by exact_mod_cast hm
  linarith [cast_gapBelow_le_two m e]

theorem RoundsInto.between {a b : ℚ} (ha : RoundsInto m e a) (hb : RoundsInto m e b)
    (haq : a ≤ q) (hqb : q ≤ b) : RoundsInto m e q := by
  refine ⟨ha.low_le.trans haq, hqb.trans hb.le_high, ?_⟩
  rintro (hq | hq)
  · exact ha.isEven (.inl (le_antisymm (haq.trans_eq hq) ha.low_le))
  · exact hb.isEven (.inr (le_antisymm hb.le_high (hq.ge.trans hqb)))

/-- Of three numbers: `q` reaches from `v` half way to the numbers around it at most, which are `g / 2`
below it and `u` above it, so `q` is as near to another one only if it is half way. -/
theorem dist_le_of_gap {v v' u g : ℚ} (hg : 0 < g) (hu : g ≤ 2 * u) (hl : v - g / 4 ≤ q)
    (hh : q ≤ v + u / 2) (hgap : v + u ≤ v' ∨ v' ≤ v - g / 2) :
    |v - q| ≤ |v' - q| ∧ (|v' - q| = |v - q| → q = v - g / 4 ∨ q = v + u / 2) := by
  rcases hgap with hgap | hgap
  · have hv' : |v' - q| = v' - q := abs_of_nonneg (by linarith)
    have hv : |v - q| ≤ u / 2 := abs_sub_le_iff.2 ⟨by linarith, by linarith⟩
    rw [hv']
    exact ⟨by linarith, fun heq => .inr (by linarith)⟩
  · have hv' : |v' - q| = q - v' := by
      rw [abs_sub_comm]
      exact abs_of_nonneg (by linarith)
    rw [hv']
    rcases le_total q v with hq | hq
    · have hv : |v - q| = v - q := abs_of_nonneg (by linarith)
      rw [hv]
      exact ⟨by linarith, fun heq => .inl (by linarith)⟩
    · have hv : |v - q| = q - v := by
        rw [abs_sub_comm]
        exact abs_of_nonneg (by linarith)
      rw [hv]
      exact ⟨by linarith, fun heq => .inl (by linarith)⟩

/-- The numbers rounded to a value are nearer to it than to any other value, but for the two ends. -/
theorem RoundsInto.dist_le (hr : RoundsInto m e q) (h : IsCanonical m e) (h' : IsCanonical m' e') :
    |m * (2 : ℚ) ^ e - q| ≤ |m' * (2 : ℚ) ^ e' - q| ∧
      (m' * (2 : ℚ) ^ e' ≠ m * 2 ^ e →
        |m' * (2 : ℚ) ^ e' - q| = |m * (2 : ℚ) ^ e - q| → m % 2 = 0) := by
  rcases eq_or_gap h h' with ⟨rfl, rfl⟩ | hgap
  · exact ⟨le_rfl, fun hne => absurd rfl hne⟩
  · obtain ⟨hl, hh, heven⟩ := hr
    have hp := two_zpow_pos e
    have hg : 0 < gapBelow m e * (2 : ℚ) ^ e := mul_pos (cast_gapBelow_pos m e) hp
    have hu : gapBelow m e * (2 : ℚ) ^ e ≤ 2 * 2 ^ e :=
      mul_le_mul_of_nonneg_right (cast_gapBelow_le_two m e) hp.le
    have hlow : (m - gapBelow m e / 4) * (2 : ℚ) ^ e = m * 2 ^ e - gapBelow m e * 2 ^ e / 4 := by ring
    have hhigh : (m + 1 / 2) * (2 : ℚ) ^ e = m * 2 ^ e + 2 ^ e / 2 := by ring
    have hbelow : (m - gapBelow m e / 2) * (2 : ℚ) ^ e = m * 2 ^ e - gapBelow m e * 2 ^ e / 2 := by
      ring
    have habove : (m + 1) * (2 : ℚ) ^ e = m * 2 ^ e + 2 ^ e := by ring
    rw [hlow, hhigh] at heven
    rw [hbelow, habove] at hgap
    obtain ⟨hle, heq⟩ := dist_le_of_gap hg hu (hlow ▸ hl) (hhigh ▸ hh) hgap
    exact ⟨hle, fun _ h => heven (heq h)⟩

theorem isCanonical_zero : IsCanonical 0 minExponent := by
  decide

/-- A negative number is farther from `q` than its opposite, and as far only if one of them is zero. -/
theorem dist_le_dist_neg {a : ℚ} (ha : 0 ≤ a) (hq : 0 ≤ q) :
    |a - q| ≤ |-a - q| ∧ (|-a - q| = |a - q| → a = 0 ∨ q = 0) := by
  have hneg : |-a - q| = a + q := by
    rw [abs_of_nonpos (by linarith)]
    ring
  rw [hneg]
  rcases le_total a q with haq | haq
  · rw [abs_of_nonpos (by linarith)]
    exact ⟨by linarith, fun heq => .inl (by linarith)⟩
  · rw [abs_of_nonneg (by linarith)]
    exact ⟨by linarith, fun heq => .inr (by linarith)⟩

theorem nearest_of_roundsInto (hq : 0 ≤ q) (h : IsCanonical m e) (hr : RoundsInto m e q) :
    Nearest q (finite false m e) := by
  have hzero := (hr.dist_le h isCanonical_zero).1
  refine ⟨h, fun u hu => ?_, fun u hu hne heq => ?_⟩
  · match u, hu with
    | finite false m' e', hu =>
      rw [toRat_finite_false, toRat_finite_false]
      exact (hr.dist_le h hu).1
    | finite true m' e', hu =>
      rw [toRat_finite_false, toRat_finite_true]
      exact (hr.dist_le h hu).1.trans (dist_le_dist_neg (by positivity) hq).1
  · match u, hu with
    | finite false m' e', hu =>
      rw [toRat_finite_false, toRat_finite_false] at hne heq
      exact (hr.dist_le h hu).2 hne heq
    | finite true m' e', hu =>
      -- The opposite of the other value is as near, so it is this value or the significand is even.
      rw [toRat_finite_false, toRat_finite_true] at hne heq
      obtain ⟨hle, htie⟩ := hr.dist_le h hu
      obtain ⟨hfar, hsides⟩ := dist_le_dist_neg (a := m' * 2 ^ e') (by positivity) hq
      have hsame := le_antisymm (hfar.trans heq.le) hle
      refine htie (fun hv => hne ?_) hsame
      rcases hsides (heq.trans hsame.symm) with h0 | h0
      · rw [h0, ← hv, h0, neg_zero]
      · have hle : m * (2 : ℚ) ^ e ≤ 0 := by simpa [h0] using hzero
        have hm : m * (2 : ℚ) ^ e = 0 := le_antisymm hle (by positivity)
        rw [hv, hm, neg_zero]

/-! ## Uniqueness and order -/

theorem Nearest.le_dist (h : Nearest q (finite false m e)) (h' : IsCanonical m' e') :
    |m * (2 : ℚ) ^ e - q| ≤ |m' * (2 : ℚ) ^ e' - q| := by
  have := h.dist_le (finite false m' e') h'
  rwa [toRat_finite_false, toRat_finite_false] at this

theorem Nearest.even_of_tie (h : Nearest q (finite false m e)) (h' : IsCanonical m' e')
    (hne : m' * (2 : ℚ) ^ e' ≠ m * 2 ^ e)
    (heq : |m' * (2 : ℚ) ^ e' - q| = |m * (2 : ℚ) ^ e - q|) : m % 2 = 0 := by
  refine h.isEven (finite false m' e') h' ?_ ?_
  · rwa [toRat_finite_false, toRat_finite_false]
  · rwa [toRat_finite_false, toRat_finite_false]

theorem two_mul_le_of_dist_le {a b : ℚ} (h : a < b) (hd : |a - q| ≤ |b - q|) : 2 * q ≤ a + b := by
  have hsq := sq_le_sq.2 hd
  nlinarith

theorem le_two_mul_of_dist_le {a b : ℚ} (h : a < b) (hd : |b - q| ≤ |a - q|) : a + b ≤ 2 * q := by
  have hsq := sq_le_sq.2 hd
  nlinarith

/-- Two values as near to one number are not both even: the one after the smaller is not, and it
would be nearer if it were not the other. -/
theorem not_nearest_of_lt (h : Nearest q (finite false m e)) (h' : Nearest q (finite false m' e'))
    (hlt : m * (2 : ℚ) ^ e < m' * 2 ^ e') : False := by
  have hc : IsCanonical m e := h.isFinite
  have hc' : IsCanonical m' e' := h'.isFinite
  have hdist := le_antisymm (h.le_dist hc') (h'.le_dist hc)
  have hm : m % 2 = 0 := h.even_of_tie hc' hlt.ne' hdist.symm
  have hm' : m' % 2 = 0 := h'.even_of_tie hc hlt.ne hdist
  have hnext : IsCanonical (m + 1) e := by
    rw [isCanonical_iff] at hc ⊢
    omega
  have hp := two_zpow_pos e
  have hmid : m * (2 : ℚ) ^ e + m' * 2 ^ e' = 2 * q :=
    le_antisymm (le_two_mul_of_dist_le hlt hdist.ge) (two_mul_le_of_dist_le hlt hdist.le)
  rcases (add_one_mul_le hc hc' hlt).eq_or_lt with heq | hgap
  · obtain ⟨rfl, -⟩ := eq_of_mul_eq hnext hc' (by exact_mod_cast heq)
    omega
  · -- The next value lies strictly between the two.
    have hnear := h.le_dist hnext
    rw [Nat.cast_succ] at hnear
    have := two_mul_le_of_dist_le (by linarith) hnear
    linarith

theorem eq_of_nearest (h : Nearest q (finite false m e)) (h' : Nearest q (finite false m' e')) :
    m = m' ∧ e = e' := by
  rcases lt_trichotomy (m * (2 : ℚ) ^ e) (m' * 2 ^ e') with hlt | heq | hlt
  · exact (not_nearest_of_lt h h' hlt).elim
  · exact eq_of_mul_eq h.isFinite h'.isFinite heq
  · exact (not_nearest_of_lt h' h hlt).elim

/-- A larger number has no smaller value nearest to it. -/
theorem Nearest.le (h : Nearest q (finite false m e)) (h' : Nearest q' (finite false m' e'))
    (hq : q ≤ q') : m * (2 : ℚ) ^ e ≤ m' * 2 ^ e' := by
  by_contra hlt
  have hlt := not_le.1 hlt
  have hd := h.le_dist h'.isFinite
  have hd' := h'.le_dist h.isFinite
  -- The two numbers lie on the wrong sides of the middle unless they are the same number.
  have heq : q = q' := by
    have := le_two_mul_of_dist_le hlt hd
    have := two_mul_le_of_dist_le hlt hd'
    linarith
  subst heq
  exact not_nearest_of_lt h' h hlt

/-! ## Rounding with infinity -/

theorem IsRounding.eq {v v' : Binary64} (h : IsRounding q v) (h' : IsRounding q v') : v = v' := by
  cases h with
  | nearest hq h =>
    cases h' with
    | nearest _ h' =>
      obtain ⟨rfl, rfl⟩ := eq_of_nearest h h'
      rfl
    | tooLarge hq' => exact absurd hq (not_lt.2 hq')
  | tooLarge hq =>
    cases h' with
    | nearest hq' _ => exact absurd hq' (not_lt.2 hq)
    | tooLarge _ => rfl

theorem IsRounding.atMost {v v' : Binary64} (h : IsRounding q v) (h' : IsRounding q' v')
    (hq : q ≤ q') : AtMost v v' := by
  cases h with
  | nearest hlt h =>
    cases h' with
    | nearest _ h' =>
      change toRat _ ≤ toRat _
      rw [toRat_finite_false, toRat_finite_false]
      exact h.le h' hq
    | tooLarge _ => trivial
  | tooLarge hle =>
    cases h' with
    | nearest hlt' _ => exact absurd (hle.trans hq) (not_le.2 hlt')
    | tooLarge _ => trivial

theorem overflow_eq : overflow = (2 ^ 53 - 1 / 2) * 2 ^ (971 : ℤ) := by
  have hpow : (2 : ℚ) ^ (971 : ℤ) = 2 ^ 970 * 2 := by
    rw [show (971 : ℤ) = (970 + 1 : ℕ) from rfl, zpow_natCast, pow_succ]
  rw [overflow, hpow, show 1024 = 970 + 54 from rfl, pow_add]
  generalize (2 : ℚ) ^ 970 = unit
  ring

theorem RoundsInto.lt_overflow (hr : RoundsInto m e q) (h : IsCanonical m e) : q < overflow := by
  rw [isCanonical_iff] at h
  rw [overflow_eq]
  refine lt_of_lt_of_le ?_ (mul_le_mul_of_nonneg_left (two_zpow_le h.2.2.1) (by norm_num))
  rcases Nat.lt_or_ge (m + 1) (2 ^ 53) with hm | hm
  · have hm : (m : ℚ) + 1 < 2 ^ 53 := by exact_mod_cast hm
    exact hr.le_high.trans_lt (mul_lt_mul_of_pos_right (by linarith) (two_zpow_pos e))
  · -- The largest significand is odd, so the half way point is not its own.
    have hm : m + 1 = 2 ^ 53 := by omega
    have hcast : (m : ℚ) + 1 / 2 = 2 ^ 53 - 1 / 2 := by
      have : (m : ℚ) + 1 = 2 ^ 53 := by exact_mod_cast hm
      linarith
    rw [← hcast]
    refine lt_of_le_of_ne hr.le_high fun heq => ?_
    have := hr.isEven (.inr heq)
    omega

theorem isRounding_of_roundsInto (hq : 0 ≤ q) (h : IsCanonical m e) (hr : RoundsInto m e q) :
    IsRounding q (finite false m e) :=
  .nearest (hr.lt_overflow h) (nearest_of_roundsInto hq h hr)

/-- The next value, unless there is none. -/
theorem exists_next (h : IsCanonical m e) :
    (∃ m' e', IsCanonical m' e' ∧ m' * (2 : ℚ) ^ e' = (m + 1) * 2 ^ e) ∨
      (m + 1 = 2 ^ 53 ∧ e = 971) := by
  rw [isCanonical_iff] at h
  rcases Nat.lt_or_ge (m + 1) (2 ^ 53) with hm | hm
  · refine .inl ⟨m + 1, e, ?_, by rw [Nat.cast_succ]⟩
    rw [isCanonical_iff]
    omega
  · have hm : m + 1 = 2 ^ 53 := by omega
    rcases h.2.2.1.eq_or_lt with he | he
    · exact .inr ⟨hm, he⟩
    · refine .inl ⟨2 ^ 52, e + 1, ?_, ?_⟩
      · rw [isCanonical_iff]
        omega
      · have : (m : ℚ) + 1 = 2 ^ 53 := by exact_mod_cast hm
        rw [this, two_zpow_succ]
        push_cast
        ring

/-- The value before a positive one. -/
theorem exists_previous (h : IsCanonical m e) (hm : 0 < m) :
    ∃ m' e', IsCanonical m' e' ∧ m' * (2 : ℚ) ^ e' = (m - gapBelow m e / 2) * 2 ^ e := by
  rw [isCanonical_iff] at h
  by_cases hdense : m = 2 ^ 52 ∧ -1074 < e
  · refine ⟨2 ^ 53 - 1, e - 1, ?_, ?_⟩
    · rw [isCanonical_iff]
      omega
    · rw [gapBelow, if_pos hdense, hdense.1, zpow_sub_one₀ (by norm_num)]
      norm_num
      ring
  · refine ⟨m - 1, e, ?_, ?_⟩
    · rw [isCanonical_iff]
      omega
    · rw [gapBelow, if_neg hdense, Nat.cast_sub hm]
      norm_num

theorem Nearest.le_high (h : Nearest q (finite false m e)) (hlt : q < overflow) :
    q ≤ (m + 1 / 2) * (2 : ℚ) ^ e ∧ (q = (m + 1 / 2) * (2 : ℚ) ^ e → m % 2 = 0) := by
  have hp := two_zpow_pos e
  rcases exists_next h.isFinite with ⟨m', e', hc, hnext⟩ | ⟨hm, rfl⟩
  · have hd := h.le_dist hc
    rw [hnext] at hd
    have hle := two_mul_le_of_dist_le (by linarith) hd
    refine ⟨by linarith, fun heq => h.even_of_tie hc (by rw [hnext]; linarith) ?_⟩
    rw [hnext, heq, abs_of_nonneg (by linarith), abs_of_nonpos (by linarith)]
    ring
  · have hm : (m : ℚ) + 1 = 2 ^ 53 := by exact_mod_cast hm
    rw [overflow_eq, ← hm] at hlt
    have hlt : q < (m + 1 / 2) * (2 : ℚ) ^ (971 : ℤ) := by
      refine lt_of_lt_of_eq hlt ?_
      ring
    exact ⟨hlt.le, fun heq => absurd heq hlt.ne⟩

theorem zero_low_le (hq : 0 ≤ q) (e : ℤ) : ((0 : ℕ) - gapBelow 0 e / 4) * (2 : ℚ) ^ e ≤ q := by
  refine le_trans (mul_nonpos_of_nonpos_of_nonneg ?_ (two_zpow_pos e).le) hq
  rw [Nat.cast_zero, zero_sub, neg_nonpos]
  exact div_nonneg (cast_gapBelow_pos 0 e).le (by norm_num)

theorem Nearest.low_le (h : Nearest q (finite false m e)) (hq : 0 ≤ q) :
    (m - gapBelow m e / 4) * (2 : ℚ) ^ e ≤ q ∧
      (q = (m - gapBelow m e / 4) * (2 : ℚ) ^ e → m % 2 = 0) := by
  have hp := two_zpow_pos e
  have hg := mul_pos (cast_gapBelow_pos m e) hp
  rcases Nat.eq_zero_or_pos m with rfl | hm
  · exact ⟨zero_low_le hq e, fun _ => rfl⟩
  · obtain ⟨m', e', hc, hprevious⟩ := exists_previous h.isFinite hm
    have hd := h.le_dist hc
    rw [hprevious] at hd
    have hle := le_two_mul_of_dist_le (by linarith) hd
    refine ⟨by linarith, fun heq => h.even_of_tie hc (by rw [hprevious]; linarith) ?_⟩
    rw [hprevious, heq, abs_of_nonpos (by linarith), abs_of_nonneg (by linarith)]
    ring

/-- What is rounded to a value is the whole of its interval and nothing else. -/
theorem isRounding_finite_iff (hq : 0 ≤ q) (h : IsCanonical m e) :
    IsRounding q (finite false m e) ↔ RoundsInto m e q := by
  constructor
  · intro hr
    cases hr with
    | nearest hlt hn =>
      obtain ⟨hlow, hlowEven⟩ := hn.low_le hq
      obtain ⟨hhigh, hhighEven⟩ := hn.le_high hlt
      exact ⟨hlow, hhigh, fun hend => hend.elim hlowEven hhighEven⟩
  · exact isRounding_of_roundsInto hq h

theorem IsRounding.eq_infinity_iff {v : Binary64} (h : IsRounding q v) :
    v = infinity false ↔ overflow ≤ q := by
  cases h with
  | nearest hlt _ => simpa using hlt
  | tooLarge hle => simpa using hle

theorem IsRounding.eq_zero_iff {v : Binary64} (hq : 0 ≤ q) (h : IsRounding q v) :
    v = zero false ↔ q ≤ 2 ^ (-1075 : ℤ) := by
  have hiff := isRounding_finite_iff hq isCanonical_zero
  have hhalf : (((0 : ℕ) : ℚ) + 1 / 2) * 2 ^ minExponent = 2 ^ (-1075 : ℤ) := by
    rw [show minExponent = -1075 + 1 from rfl, two_zpow_succ]
    generalize (2 : ℚ) ^ (-1075 : ℤ) = half
    push_cast
    ring
  constructor
  · rintro rfl
    exact (hiff.1 h).le_high.trans_eq hhalf
  · intro hle
    exact h.eq (hiff.2 ⟨zero_low_le hq minExponent, hle.trans_eq hhalf.symm, fun _ => rfl⟩)

end ScriptLexer.Binary64
