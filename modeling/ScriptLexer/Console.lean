import ScriptLexer.Text.Basic

/-! # What a run puts out

A run writes to two streams, the second of which also takes the lines of its log. A transcript keeps
the order in which things were written, so each stream can be read off it, and both together. -/

namespace ScriptLexer

/-- Something that is written: on the output stream, on the error stream, or in the log. -/
inductive Output where
  | out (t : Text)
  | err (t : Text)
  | log (t : Text)
deriving DecidableEq, Repr

namespace Output

/-- What is written, whatever the stream. -/
def text : Output → Text
  | out t => t
  | err t => t
  | log t => t

def isOut : Output → Bool
  | out _ => true
  | _ => false

def isLog : Output → Bool
  | log _ => true
  | _ => false

end Output

/-- Everything that a run writes, in order. -/
abbrev Transcript := List Output

namespace Transcript

/-- The output stream. -/
def out (t : Transcript) : Text :=
  (t.filter Output.isOut).flatMap Output.text

/-- The error stream, with the log in it. -/
def err (t : Transcript) : Text :=
  (t.filter fun o => !o.isOut).flatMap Output.text

/-- The lines of the log. -/
def log (t : Transcript) : Text :=
  (t.filter Output.isLog).flatMap Output.text

/-- Both streams, when they are the same. -/
def merged (t : Transcript) : Text :=
  t.flatMap Output.text

/-- The transcript without its log. -/
def withoutLog (t : Transcript) : Transcript :=
  t.filter fun o => !o.isLog

end Transcript

end ScriptLexer
