import ScriptLexer.Numeric.Binary64

/-! # The shortest decimal of a binary64 value

A value is written with the fewest decimal digits that round to it, and among those as near to it as
possible. The digits are sought grid by grid, from one digit to seventeen: if any point of a grid
rounds to the value, one of the two grid points around the value does. All comparisons are exact, on
natural numbers. -/

namespace ScriptLexer

/-- The number `digits` times ten to the `exponent`. -/
structure Decimal where
  digits : Nat
  exponent : Int
deriving DecidableEq, Repr

namespace Decimal

/-- The same number with no trailing zero among its digits, unless it is zero. -/
def stripped (d : Decimal) : Decimal :=
  if d.digits ≠ 0 ∧ d.digits % 10 = 0 then stripped ⟨d.digits / 10, d.exponent + 1⟩ else d
termination_by d.digits
decreasing_by omega

/-- The factors by which `a` and `b` are multiplied to compare `a` times ten to the `i` with `b`
times two to the `j` on natural numbers. -/
def scales (i j : Int) : Nat × Nat :=
  (Nat.pow 10 i.toNat * Nat.pow 2 (-j).toNat, Nat.pow 2 j.toNat * Nat.pow 10 (-i).toNat)

end Decimal

namespace Binary64

/-- Whether a decimal lies among the numbers that round to the value `m` times two to the `e`. In
quarters of the value's last place these reach two up and two down, but one down where the values
below are twice as dense; the two ends belong to an even significand. -/
def roundsTo (m : Nat) (e : Int) (d : Decimal) : Bool :=
  let (ten, two) := Decimal.scales d.exponent (e - 2)
  let reach := if m = Nat.pow 2 (precision - 1) ∧ minExponent < e then 1 else 2
  let low := (4 * m - reach) * two
  let high := (4 * m + 2) * two
  let point := d.digits * ten
  if m % 2 = 0 then low ≤ point && point ≤ high else low < point && point < high

/-- The point of the grid of multiples of ten to the `i` that rounds to the value `m` times two to
the `e`: the nearer of two, and of two equally near ones the even. -/
def onGrid? (m : Nat) (e i : Int) : Option Decimal :=
  let (ten, two) := Decimal.scales i (e - 2)
  let below := 4 * m * two / ten
  let middle := (2 * below + 1) * ten
  match roundsTo m e ⟨below, i⟩, roundsTo m e ⟨below + 1, i⟩ with
  | false, false => none
  | true, false => some ⟨below, i⟩
  | false, true => some ⟨below + 1, i⟩
  | true, true =>
    if 8 * m * two < middle ∨ (8 * m * two = middle ∧ below % 2 = 0) then some ⟨below, i⟩
    else some ⟨below + 1, i⟩

/-- The decimal exponent of the first digit of a positive quotient. The decimal lengths of its two
numbers leave two candidates. -/
def leadingExponent (num den : Nat) : Int :=
  let high : Int := (Nat.toDigits 10 num).length - (Nat.toDigits 10 den).length
  if den * Nat.pow 10 high.toNat ≤ num * Nat.pow 10 (-high).toNat then high else high - 1

/-- The value `m` times two to the `e` as a decimal, with all its digits. -/
def exactDecimal (m : Nat) (e : Int) : Decimal :=
  ⟨m * Nat.pow 2 e.toNat * Nat.pow 5 (-e).toNat, min e 0⟩

/-- The shortest decimal that rounds to the positive value `m` times two to the `e`. Seventeen
digits always suffice, so the exact decimal is only there to make the search total. -/
def shortestDecimal (m : Nat) (e : Int) : Decimal :=
  let first := leadingExponent (m * Nat.pow 2 e.toNat) (Nat.pow 2 (-e).toNat)
  let found := (List.range 17).findSome? fun (k : Nat) => onGrid? m e (first - (k : Int))
  (found.getD (exactDecimal m e)).stripped

end Binary64

end ScriptLexer
