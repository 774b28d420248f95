import ScriptLexer.Numeric.Binary64
import ScriptLexer.Text.Basic
import ScriptLexer.Text.Blank
import ScriptLexer.Text.DecimalDigit

/-! # Reading numbers from text

Two readers. `ofDigits` reads the digits of a number literal, which are known to be digits. `ofText?`
reads any text that is meant as a number: white space around it, a sign, decimal digits of any
script with single underscores between them, a fraction, an exponent, or one of the words for
infinity and for no number. -/

namespace ScriptLexer.Binary64

/-- The number that a sequence of decimal digits denotes. -/
def digitsValue (digits : Text) : Nat :=
  Nat.ofDigitChars 10 digits 0

/-- The value nearest to a decimal given by its digits before and after the point. -/
def ofDigits (negative : Bool) (whole fraction : Text) : Binary64 :=
  ofRatio negative (digitsValue (whole ++ fraction)) (Nat.pow 10 fraction.length)

/-- The value nearest to a decimal with an exponent. The exponent may be so large that its power of
ten cannot be computed; beyond these limits the power alone makes the number infinite, or too small
for its digits to lift it above zero. -/
def ofDigitsExponent (negative : Bool) (whole fraction : Text) (exponent : Int) : Binary64 :=
  let digits := digitsValue (whole ++ fraction)
  let e := exponent - fraction.length
  if digits = 0 then zero negative
  else if 400 < e then infinity negative
  else if e < -400 - ((whole ++ fraction).length : Int) then zero negative
  else ofRatio negative (digits * Nat.pow 10 e.toNat) (Nat.pow 10 (-e).toNat)

/-- The ASCII form of a text: decimal digits of other scripts become the digits they stand for. -/
def asciiDigits (t : Text) : Text :=
  t.map fun c =>
    match Text.decimalDigit? c with
    | some d => Char.ofNat ('0'.toNat + d)
    | none => c

/-- The text without its underscores, provided that each stands between two digits. -/
def withoutSeparators? : Text → Option Text
  | [] => some []
  | '_' :: _ => none
  | c :: '_' :: d :: rest =>
    if c.isDigit && d.isDigit then (withoutSeparators? (d :: rest)).map (c :: ·) else none
  | c :: rest => (withoutSeparators? rest).map (c :: ·)

/-- A sign in front of a text, and the rest. -/
def splitSign : Text → Bool × Text
  | '-' :: rest => (true, rest)
  | '+' :: rest => (false, rest)
  | t => (false, t)

/-- An exponent: nothing, or an `e` of either case, a sign or none, and digits. -/
def exponent? : Text → Option (Option Int)
  | [] => some none
  | c :: rest =>
    let (negative, digits) := splitSign rest
    if (c = 'e' ∨ c = 'E') ∧ digits ≠ [] ∧ digits.all Char.isDigit then
      let n : Int := digitsValue digits
      some (some (if negative then -n else n))
    else none

/-- An unsigned number: the words, or digits with at most one point among them. -/
def unsigned? (negative : Bool) (t : Text) : Option Binary64 :=
  let lower := t.map Char.toLower
  if lower = "inf".toList ∨ lower = "infinity".toList then some (infinity negative)
  else if lower = "nan".toList then some nan
  else
    let whole := t.takeWhile Char.isDigit
    let (fraction, rest) :=
      match t.dropWhile Char.isDigit with
      | '.' :: tail => (tail.takeWhile Char.isDigit, tail.dropWhile Char.isDigit)
      | tail => ([], tail)
    if whole ++ fraction = [] then none
    else
      (exponent? rest).map fun
        | none => ofDigits negative whole fraction
        | some e => ofDigitsExponent negative whole fraction e

/-- The value that a text denotes, if it denotes a number. -/
def ofText? (t : Text) : Option Binary64 :=
  (withoutSeparators? (asciiDigits (Text.trimmed t))).bind fun plain =>
    let (negative, number) := splitSign plain
    unsigned? negative number

end ScriptLexer.Binary64
