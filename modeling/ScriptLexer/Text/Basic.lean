/-! # Text

Text is a list of code points: every position and every length in this library counts code points.
This module has the written forms of numbers that messages and printed tokens use. -/

namespace ScriptLexer

/-- Text is a list of code points. -/
abbrev Text := List Char

namespace Text

/-- A natural number in decimal, without leading zeros. -/
def ofNat (n : Nat) : Text :=
  Nat.toDigits 10 n

/-- An integer in decimal, with a minus sign when it is negative. -/
def ofInt : Int → Text
  | .ofNat n => ofNat n
  | .negSucc n => '-' :: ofNat (n + 1)

/-- A number in lower-case hexadecimal, filled up with zeros to at least `width` digits. -/
def ofNatHex (width n : Nat) : Text :=
  let digits := Nat.toDigits 16 n
  List.replicate (width - digits.length) '0' ++ digits

/-- The number of line feeds in a text, by which line numbers move. -/
def lineFeeds (t : Text) : Nat :=
  t.count '\n'

@[simp] theorem lineFeeds_nil : lineFeeds [] = 0 := rfl

@[simp] theorem lineFeeds_append (s t : Text) : lineFeeds (s ++ t) = lineFeeds s + lineFeeds t := by
  simp [lineFeeds]

theorem lineFeeds_eq_zero {t : Text} (h : '\n' ∉ t) : lineFeeds t = 0 :=
  List.count_eq_zero.2 h

theorem lineFeeds_singleton {c : Char} (h : c ≠ '\n') : lineFeeds [c] = 0 :=
  lineFeeds_eq_zero (by simpa using Ne.symm h)

/-- What holds of every character of a fixed text is checked one character at a time. -/
theorem forall_mem_of_all {p : Char → Prop} [DecidablePred p] {t : Text}
    (h : t.all (fun c => p c) = true) : ∀ c ∈ t, p c := by
  simpa using h

/-- Text with a line feed after it, as printed lines have. -/
def asLine (t : Text) : Text :=
  t ++ ['\n']

end Text

end ScriptLexer
