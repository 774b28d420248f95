import ScriptLexer.Text.Capitalized

/-! # Diagnostics

A diagnostic is a problem as it is reported to a reader: what is wrong, on which line, and how
grave it is. -/

namespace ScriptLexer

/-- A reported problem. `place` is written directly after the severity. -/
structure Diagnostic where
  message : Text
  line : Int
  severity : Text := "error".toList
  code : Option Text := none
  place : Text := []
  help : Option Text := none
deriving DecidableEq, Repr

/-- The line that reports the problem. -/
def Diagnostic.written (d : Diagnostic) : Text :=
  "[line ".toList ++ Text.ofInt d.line ++ "] ".toList ++ Text.capitalized d.severity ++ d.place ++
    ": ".toList ++ d.message

end ScriptLexer
