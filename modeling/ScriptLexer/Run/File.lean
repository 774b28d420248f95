import ScriptLexer.Files.Reading
import ScriptLexer.Run.Basic

/-! # Running a script

A script is read from a file and run. That it cannot be opened is reported with a status of its own;
any other reason why it cannot be read is left to the caller. -/

namespace ScriptLexer

/-- Tokens and errors of a script. -/
def scanFile (files : FileSystem) (path : Text) (encoding : EncodingChoice)
    (codecs : Codecs := .builtIn) : Except ReadFailure Scan :=
  (readScript files path encoding codecs).map scan

/-- What is logged when a script has been read. -/
def readRecord (path source : Text) : Log.Record where
  logger := scanLogger
  severity := .debug
  message :=
    "read ".toList ++ Text.ofNat source.length ++ " characters from ".toList ++ path

/-- What is logged when a script cannot be opened. -/
def failedRecord (command path : Text) (f : OpenFailure) : Log.Record where
  logger := command
  severity := .debug
  message := "failed to read ".toList ++ path ++ ": ".toList ++ f.written path

/-- What is printed when a script cannot be opened. -/
def cannotRead (path : Text) (f : OpenFailure) : Text :=
  Text.asLine ("joxy: cannot read ".toList ++ path ++ ": ".toList ++ f.reason)

/-- Runs the script at a path. The command's logger is `command`. -/
def runFile (logs : Log.Registry) (command : Text) (files : FileSystem) (path : Text)
    (encoding : EncodingChoice) (codecs : Codecs := .builtIn) :
    Transcript × Except ReadFailure Status :=
  match readScript files path encoding codecs with
  | .ok source => (logged logs [readRecord path source] ++ run logs source, .ok (scan source).status)
  | .error (.cannotOpen _ f) =>
    (logged logs [failedRecord command path f] ++ [.err (cannotRead path f)], .ok .noInput)
  | .error f => ([], .error f)

end ScriptLexer
