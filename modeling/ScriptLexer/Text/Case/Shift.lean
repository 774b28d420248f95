import ScriptLexer.Text.Basic

/-! # Case tables

A case mapping moves whole stretches of the code space by a fixed distance: a stretch of every
character (Latin capitals), or of every second one (scripts that alternate capitals and small
letters). -/

namespace ScriptLexer.Text

/-- The characters from `first` to `last`, `step` apart, all moved by `distance`. -/
structure CaseShift where
  first : Nat
  last : Nat
  step : Nat
  distance : Int

/-- The image of a character under a table of shifts. The stretches ascend and are apart, so the
first one that ends at or after the character decides. -/
def CaseShift.apply : List CaseShift → Char → Char
  | [], c => c
  | s :: rest, c =>
    if c.toNat ≤ s.last then
      if s.first ≤ c.toNat ∧ (c.toNat - s.first) % s.step = 0 then
        Char.ofNat ((c.toNat : Int) + s.distance).toNat
      else c
    else apply rest c

end ScriptLexer.Text
