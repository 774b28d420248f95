import ScriptLexer.Numeric.Shortest
import ScriptLexer.Text.Basic

/-! # Written numbers

How a number literal is shown in a printed token: the shortest decimal of the value, positional while
its first digit stands between the fourth place after the point and the sixteenth before it, and
with a signed exponent of at least two digits elsewhere. Positional numbers always have a
fraction. -/

namespace ScriptLexer

/-- First digits with exponents from here on are written positionally, -/
def positionalFrom : Int := -4

/-- and those with exponents from here on are not. -/
def positionalBelow : Int := 16

namespace Decimal

/-- An exponent with its sign and at least two digits. -/
def writtenExponent (e : Int) : Text :=
  let digits := Text.ofNat e.natAbs
  (if e < 0 then '-' else '+') :: List.replicate (2 - digits.length) '0' ++ digits

/-- A decimal laid out by the exponent of its first digit. -/
def written (d : Decimal) : Text :=
  let digits := Text.ofNat d.digits
  let first : Int := d.exponent + digits.length - 1
  if positionalFrom ≤ first ∧ first < positionalBelow then
    if first < 0 then
      ['0', '.'] ++ List.replicate (-first - 1).toNat '0' ++ digits
    else
      let whole := (first + 1).toNat
      let filled := digits ++ List.replicate (whole - digits.length) '0'
      let fraction := filled.drop whole
      filled.take whole ++ '.' :: (if fraction = [] then ['0'] else fraction)
  else
    let fraction := digits.drop 1
    digits.take 1 ++ (if fraction = [] then [] else '.' :: fraction) ++
      'e' :: writtenExponent first

end Decimal

namespace Binary64

/-- The minus sign of a negative value. -/
def writtenSign (negative : Bool) : Text :=
  if negative then ['-'] else []

/-- The text of a value. -/
def written : Binary64 → Text
  | nan => "nan".toList
  | infinity negative => writtenSign negative ++ "inf".toList
  | finite negative 0 _ => writtenSign negative ++ "0.0".toList
  | finite negative m e => writtenSign negative ++ (shortestDecimal m e).written

end Binary64

end ScriptLexer
