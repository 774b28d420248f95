import ScriptLexer.Command.Arguments
import ScriptLexer.Run.File
import ScriptLexer.Run.Prompt

/-! # The command

With one script the command runs it, with none it prompts for lines. -/

namespace ScriptLexer.Command

def usageText : Text :=
  "Usage: joxy [script]\n".toList

def helpLines : List String :=
  ["usage: joxy [-h] [--encoding ENCODING] [-v] [script ...]",
   "",
   "Scan a Joxy script and print its tokens",
   "",
   "positional arguments:",
   "  script               script to scan; omit for an interactive prompt",
   "",
   "options:",
   "  -h, --help           show this help message and exit",
   "  --encoding ENCODING  source file encoding (default: platform encoding)",
   "  -v, --verbose        enable debug logging on stderr"]

def helpText : Text :=
  helpLines.flatMap fun line => Text.asLine line.toList

/-- What the command finds around it. `logger` is the name of its own logger. -/
structure Surroundings where
  files : FileSystem
  input : Input
  codecs : Codecs := .builtIn
  logger : Text := commandLogger
  logs : Log.Registry := programLogs logger Log.usual

/-- How the command ends: it hands over a status, or leaves at once with one, or fails because a
script can be opened but not read. -/
inductive Ending where
  | returned (s : Status)
  | exited (s : Status)
  | failed (f : ReadFailure)
deriving DecidableEq, Repr

/-- The ending of the command when it is run as a script, which leaves with the status handed over. -/
def Ending.ofScript : Ending → Ending
  | returned s => exited s
  | e => e

/-- Prompts for lines. An interrupt ends the line of the prompt, and is no failure. -/
def promptCommand (around : Surroundings) (logs : Log.Registry) : Transcript × Ending :=
  match prompt logs around.input with
  | (t, .ok s) => (t, .returned s)
  | (t, .error _) => (t ++ [.out ['\n']], .returned .success)

/-- Runs one script. -/
def scriptCommand (around : Surroundings) (logs : Log.Registry) (path : Text)
    (encoding : EncodingChoice) : Transcript × Ending :=
  match runFile logs around.logger around.files path encoding around.codecs with
  | (t, .ok s) => (t, .returned s)
  | (t, .error f) => (t, .failed f)

/-- The loggers for arguments that may ask for everything to be logged. -/
def Arguments.logs (a : Arguments) (logs : Log.Registry) : Log.Registry :=
  if a.isVerbose then logs.setLevelTo Log.Severity.debug.level else logs

/-- Does what the arguments ask for. -/
def carryOut (around : Surroundings) (a : Arguments) : Transcript × Ending :=
  let logs := a.logs around.logs
  match a.scripts with
  | [] => promptCommand around logs
  | [path] => scriptCommand around logs path a.encoding
  | _ => ([.out usageText], .returned .usage)

/-- Runs the command with a command line. -/
def runCommand (around : Surroundings) (line : List Text) : Transcript × Ending :=
  match parseArguments line with
  | .arguments a => carryOut around a
  | .help => ([.out helpText], .exited .success)
  | .misuse => ([.err usageText], .exited .usage)

/-- How the command is started: it is called, or run as a script. -/
inductive Start where
  | called
  | asScript
deriving DecidableEq, Repr

/-- The name of the command's own logger. -/
def Start.logger : Start → Text
  | called => commandLogger
  | asScript => scriptLogger

/-- The ending of the command as it is seen from outside. -/
def Start.ending : Start → Ending → Ending
  | called, e => e
  | asScript, e => e.ofScript

/-- Runs the command from the beginning, with its loggers as they are at first. -/
def startCommand (start : Start) (codecs : Codecs) (files : FileSystem) (input : Input)
    (line : List Text) : Transcript × Ending :=
  let (t, e) := runCommand { files, input, codecs, logger := start.logger } line
  (t, start.ending e)

end ScriptLexer.Command
