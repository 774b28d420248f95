import ScriptLexer.Command.Basic

/-! # The program

Connects the command to the arguments, the files, the environment and the streams of a process. Only
the one script that is asked for is read, and lines of the prompt are run as they are typed. -/

namespace ScriptLexer.Program

open ScriptLexer.Command

/-- Writes what a run puts out. -/
def write (t : Transcript) : IO Unit := do
  let output ← IO.getStdout
  let errors ← IO.getStderr
  for o in t do
    let stream := if o.isOut then output else errors
    stream.putStr (String.ofList o.text)
  output.flush
  errors.flush

/-- The failure with a number that a process was given. Some come as what is missing to 2 ^ 32. -/
def numberedFailure (number : UInt32) (details : String) : OpenFailure :=
  .ofNumber (if number < 0x80000000 then number.toNat else UInt32.size - number.toNat) details.toList

/-- The failure that an error of the file system comes to. -/
def openFailure : IO.Error → OpenFailure
  | .noFileOrDirectory _ number details => numberedFailure number details
  | .inappropriateType _ number details => numberedFailure number details
  | .invalidArgument _ number details => numberedFailure number details
  | .illegalOperation number details => numberedFailure number details
  | .permissionDenied _ number details => numberedFailure number details
  | .resourceExhausted _ number details => numberedFailure number details
  | .unsatisfiedConstraints number details => numberedFailure number details
  | .otherError number details => numberedFailure number details
  | e => .other 0 (toString e).toList

/-- What reading a path comes to. -/
def readPath (path : Text) : IO (Except OpenFailure Bytes) := do
  match (← (IO.FS.readBinFile (String.ofList path)).toBaseIO) with
  | .ok contents => return .ok contents.toList
  | .error e => return .error (openFailure e)

/-- A file system for one script. No other path is looked up in it. -/
def fileSystemFor (scripts : List Text) : IO FileSystem := do
  match scripts with
  | [path] =>
    let result ← readPath path
    return fun _ => result
  | _ => return fun _ => .error .notFound

/-- Runs lines as they are typed. -/
partial def promptForLines (logs : Log.Registry) : IO Unit := do
  write [.out promptText]
  let line ← (← IO.getStdin).getLine
  unless line.isEmpty do
    write (run logs (trimmedLine line.toList))
    promptForLines logs

/-- The number that a process ends with. -/
def exitCode : Ending → IO UInt32
  | .returned s => return UInt32.ofNat s.code
  | .exited s => return UInt32.ofNat s.code
  | .failed f => do
    IO.eprintln (String.ofList f.message)
    return 1

/-- Carries out arguments. -/
def carryOutArguments (logs : Log.Registry) (a : Arguments) : IO UInt32 := do
  if a.scripts.isEmpty then
    promptForLines (a.logs logs)
    return 0
  else
    let files ← fileSystemFor a.scripts
    let (t, ending) := carryOut { files, input := { text := [] }, logs } a
    write t
    exitCode ending

/-- Runs the command with the levels that the environment asks for. -/
def start (line : List Text) (setting : Option Text) : IO UInt32 := do
  match Log.levelOfSetting setting with
  | .error e =>
    IO.eprintln (String.ofList e.message)
    return 1
  | .ok level =>
    match parseArguments line with
    | .arguments a => carryOutArguments (programLogs commandLogger level) a
    | .help =>
      write [.out helpText]
      return 0
    | .misuse =>
      write [.err usageText]
      return UInt32.ofNat Status.usage.code

end ScriptLexer.Program

def main (arguments : List String) : IO UInt32 := do
  let setting ← IO.getEnv "JOXY_LOG_LEVEL"
  ScriptLexer.Program.start (arguments.map String.toList) (setting.map String.toList)
