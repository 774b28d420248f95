/-! # Binary64 values

The numbers that number literals stand for: the values of the 64-bit binary format as plain data, so
that arithmetic on them is arithmetic on integers. `ofRatio` rounds an exact quotient to the nearest
value, a quotient half way between two of them to the one with the even significand. -/

namespace ScriptLexer

/-- A value of the 64-bit binary format. A finite value is its significand times two to its
exponent, with a sign that zero has too. -/
inductive Binary64 where
  | nan
  | infinity (negative : Bool)
  | finite (negative : Bool) (significand : Nat) (exponent : Int)
deriving DecidableEq, Repr

namespace Binary64

/-- The significand of a value has at most this many binary digits. -/
def precision : Nat := 53

/-- The exponent of the smallest values. -/
def minExponent : Int := -1074

/-- The exponent of the largest values. -/
def maxExponent : Int := 971

/-- A finite value in the one form that the format has for it: the significand fits, and it fills its
53 digits unless the exponent is the least. -/
def IsCanonical (significand : Nat) (exponent : Int) : Prop :=
  significand < Nat.pow 2 precision ∧ minExponent ≤ exponent ∧ exponent ≤ maxExponent ∧
    (exponent = minExponent ∨ Nat.pow 2 (precision - 1) ≤ significand)

instance (m : Nat) (e : Int) : Decidable (IsCanonical m e) :=
  inferInstanceAs (Decidable (_ ∧ _ ∧ _ ∧ _))

/-- The zero of either sign. -/
def zero (negative : Bool) : Binary64 :=
  finite negative 0 minExponent

/-! ## Rounding -/

/-- The quotient rounded to the nearest natural number, a half to the even neighbour. -/
def roundDiv (num den : Nat) : Nat :=
  let down := num / den
  let left := num % den
  if 2 * left < den ∨ (2 * left = den ∧ down % 2 = 0) then down else down + 1

/-- The numerator and denominator of a quotient counted in units of two to the `e`. -/
def inUnits (num den : Nat) (e : Int) : Nat × Nat :=
  (num * Nat.pow 2 (-e).toNat, den * Nat.pow 2 e.toNat)

/-- The exponent at which a positive quotient has 53 binary digits before the point, or the least
exponent if that is greater. The binary lengths of the two numbers leave two candidates, and the
lower one stands unless the quotient has a digit too many there. -/
def unitExponent (num den : Nat) : Int :=
  let low := max minExponent ((num.log2 : Int) - (den.log2 : Int) - precision)
  let (n, d) := inUnits num den low
  if n / d < Nat.pow 2 precision then low else low + 1

/-- A significand that rounding may have carried to one digit too many, brought back into form.
Above the largest exponent there is only infinity. -/
def ofRounded (negative : Bool) (significand : Nat) (exponent : Int) : Binary64 :=
  let (m, e) :=
    if significand = Nat.pow 2 precision then (Nat.pow 2 (precision - 1), exponent + 1)
    else (significand, exponent)
  if maxExponent < e then infinity negative else finite negative m e

/-- The value nearest to `num / den`, for a positive `den`. -/
def ofRatio (negative : Bool) (num den : Nat) : Binary64 :=
  if num = 0 then zero negative
  else
    let e := unitExponent num den
    let (n, d) := inUnits num den e
    ofRounded negative (roundDiv n d) e

/-! ## Comparison -/

/-- Equality of the numbers that two values stand for: the two zeros are equal, and what is not a
number differs from everything, itself included. -/
def sameNumber : Binary64 → Binary64 → Bool
  | nan, _ => false
  | _, nan => false
  | finite _ 0 _, finite _ 0 _ => true
  | a, b => a == b

end Binary64

end ScriptLexer
