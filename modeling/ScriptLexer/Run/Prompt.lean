import ScriptLexer.Run.Basic

/-! # The prompt

Without a script the command reads lines and runs each of them on its own. -/

namespace ScriptLexer

/-- What is typed at the prompt. At its end the input is either closed or interrupted. -/
structure Input where
  text : Text
  isInterrupted : Bool := false
deriving DecidableEq, Repr

/-- The prompt was left by an interrupt. -/
structure Interrupted where
deriving DecidableEq, Repr

/-- What a line is asked for with. -/
def promptText : Text :=
  "> ".toList

/-- The lines of a text, without the line feeds that end them. Nothing after the last line feed is no
line. -/
def inputLines : Text → List Text
  | [] => []
  | '\n' :: rest => [] :: inputLines rest
  | c :: rest =>
    match inputLines rest with
    | line :: lines => (c :: line) :: lines
    | [] => [[c]]

/-- A line without the carriage returns at its end. -/
def trimmedLine (line : Text) : Text :=
  (line.reverse.dropWhile fun c => c = '\r' || c = '\n').reverse

/-- Asks for a line, and runs it. -/
def promptOnce (logs : Log.Registry) (line : Text) : Transcript :=
  .out promptText :: run logs (trimmedLine line)

/-- Asks for lines until there are no more. -/
def prompt (logs : Log.Registry) (input : Input) : Transcript × Except Interrupted Status :=
  ((inputLines input.text).flatMap (promptOnce logs) ++ [.out promptText],
    if input.isInterrupted then .error {} else .ok .success)

end ScriptLexer
