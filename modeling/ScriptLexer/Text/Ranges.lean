/-! # Tables of code point ranges

A property of characters is kept as a list of closed ranges, ascending and apart, and looked up by
one walk that stops at the first range that can decide. -/

namespace ScriptLexer.Text

/-- Whether `n` lies in one of the closed ranges. The ranges ascend, so the first one that ends at
or after `n` decides. -/
def inRanges : List (Nat × Nat) → Nat → Bool
  | [], _ => false
  | (lo, hi) :: rest, n => if n ≤ hi then decide (lo ≤ n) else inRanges rest n

end ScriptLexer.Text
