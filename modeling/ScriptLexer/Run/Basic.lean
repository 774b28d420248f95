import ScriptLexer.Console
import ScriptLexer.Log.Registry
import ScriptLexer.Scan.Basic

/-! # Scanning and printing

A run scans a text, logs what it did, and prints every token and then every error, one a line. -/

namespace ScriptLexer

/-- How a run of the command can end. -/
inductive Status where
  | success
  | usage
  | dataError
  | noInput
deriving DecidableEq, Repr

/-- The number that stands for a status. -/
def Status.code : Status → Nat
  | success => 0
  | usage => 64
  | dataError => 65
  | noInput => 66

/-- The status after scanning: errors in a script are errors in its data. -/
def Scan.status (s : Scan) : Status :=
  if s.hasErrors then .dataError else .success

/-- Prints tokens and errors. -/
def report (s : Scan) : Transcript :=
  s.tokens.map (fun t => .out (Text.asLine t.written)) ++
    s.errors.map fun e => .err (Text.asLine e.written)

/-! ## The log -/

/-- The logger of the scanner. -/
def scanLogger : Text :=
  "joxy.lexer.lexer".toList

/-- The logger of the command. -/
def commandLogger : Text :=
  "joxy.cli".toList

/-- The logger of the command when it is run as a script. -/
def scriptLogger : Text :=
  "__main__".toList

/-- The loggers at the beginning of a run: that of the scanner and that of the command. -/
def programLogs (command : Text) (level : Int) : Log.Registry where
  loggers := [scanLogger, command].map fun name => Log.Logger.configure level { name }

/-- What gets into the log of some records. What is decided for them need not be kept: no logger that
is refused a level can come between a logger of the program and the ancestor whose level counts. -/
def logged (logs : Log.Registry) (records : List Log.Record) : Transcript :=
  records.flatMap fun e => (logs.lines e).map .log

/-- What the scanner logs: each error as it is found, and the size of the whole. -/
def scanRecords (source : Text) : List Log.Record :=
  let s := scan source
  s.errors.map (fun e => ⟨scanLogger, .debug, "recorded ".toList ++ e.written⟩) ++
    [⟨scanLogger, .debug,
      "scanned ".toList ++ Text.ofNat source.length ++ " characters into ".toList ++
        Text.ofNat s.tokens.length ++ " tokens with ".toList ++ Text.ofNat s.errors.length ++
        " errors".toList⟩]

/-- Scans a text and prints what it found. -/
def run (logs : Log.Registry) (source : Text) : Transcript :=
  logged logs (scanRecords source) ++ report (scan source)

end ScriptLexer
