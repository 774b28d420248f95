import ScriptLexer.Text.Ranges

/-! # White space

The white space that may surround the text of a number: the 25 characters of the Unicode property
White_Space. -/

namespace ScriptLexer.Text

/-- The code points of white space, as ascending closed ranges. -/
def whiteSpaceRanges : List (Nat × Nat) :=
  [(0x9, 0xD), (0x20, 0x20), (0x85, 0x85), (0xA0, 0xA0), (0x1680, 0x1680), (0x2000, 0x200A),
   (0x2028, 0x2029), (0x202F, 0x202F), (0x205F, 0x205F), (0x3000, 0x3000)]

/-- Whether a character is white space. -/
def isWhiteSpace (c : Char) : Bool :=
  inRanges whiteSpaceRanges c.toNat

/-- The text without the white space at its two ends. -/
def trimmed (t : List Char) : List Char :=
  ((t.dropWhile isWhiteSpace).reverse.dropWhile isWhiteSpace).reverse

end ScriptLexer.Text
