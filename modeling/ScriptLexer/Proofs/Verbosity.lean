import ScriptLexer.Command.Basic
import ScriptLexer.Proofs.Prompting

/-! # Verbose runs

Asking for verbose output lowers the level of the loggers and does nothing else. An option for it in
front of a command line leaves the rest of the line to be read as before, and what a run writes apart
from its log depends on no logger. At first the loggers take no debug records, so a run that does not
ask for verbose output has no log at all. -/

namespace ScriptLexer

/-! ## Runs but for their logs -/

/-- Two runs that come to the same and write the same, but for their logs. -/
structure SameButLog {α : Type} (r r' : Transcript × α) : Prop where
  result : r.2 = r'.2
  written : r.1.withoutLog = r'.1.withoutLog

namespace SameButLog

variable {α : Type} {r r' : Transcript × α}

theorem refl (r : Transcript × α) : SameButLog r r :=
  ⟨rfl, rfl⟩

theorem out_eq (h : SameButLog r r') : r.1.out = r'.1.out := by
  rw [← out_withoutLog, h.written, out_withoutLog]

end SameButLog

theorem withoutLog_append (t u : Transcript) :
    Transcript.withoutLog (t ++ u) = t.withoutLog ++ u.withoutLog :=
  List.filter_append _ _

theorem withoutLog_promptOnce (logs : Log.Registry) (line : Text) :
    (promptOnce logs line).withoutLog = .out promptText :: report (scan (trimmedLine line)) := by
  rw [← withoutLog_run logs]
  rfl

section

variable (logs logs' : Log.Registry)

theorem sameButLog_prompt (input : Input) : SameButLog (prompt logs input) (prompt logs' input) := by
  refine ⟨rfl, ?_⟩
  simp only [prompt, withoutLog_append]
  congr 1
  induction inputLines input.text with
  | nil => rfl
  | cons line lines ih =>
    rw [List.flatMap_cons, List.flatMap_cons, withoutLog_append, withoutLog_append, ih,
      withoutLog_promptOnce, withoutLog_promptOnce]

theorem sameButLog_runFile (command : Text) (files : FileSystem) (path : Text)
    (encoding : EncodingChoice) (codecs : Codecs) :
    SameButLog (runFile logs command files path encoding codecs)
      (runFile logs' command files path encoding codecs) := by
  unfold runFile
  split
  · refine ⟨rfl, ?_⟩
    simp only [withoutLog_logged_append, withoutLog_run]
  · refine ⟨rfl, ?_⟩
    simp only [withoutLog_logged_append]
  · exact SameButLog.refl _

end

namespace Command

/-! ## The option in front -/

def Arguments.madeVerbose (a : Arguments) : Arguments :=
  { a with isVerbose := true }

def Parsed.madeVerbose : Parsed → Parsed
  | .arguments a => .arguments a.madeVerbose
  | p => p

/-- Whether a command line asks for verbose output. Help and misuse do not. -/
def Parsed.isVerbose : Parsed → Bool
  | .arguments a => a.isVerbose
  | _ => false

namespace Progress

def madeVerbose (p : Progress) : Progress :=
  { p with arguments := p.arguments.madeVerbose }

section

variable (p : Progress)

theorem scripts_madeVerbose (ts : List Text) :
    p.madeVerbose.scripts ts = (p.scripts ts).madeVerbose := by
  unfold scripts madeVerbose
  split <;> rfl

theorem encoding_madeVerbose (value : Text) :
    p.madeVerbose.encoding value = (p.encoding value).madeVerbose :=
  rfl

theorem verbose_madeVerbose : p.madeVerbose.verbose = p.verbose.madeVerbose :=
  rfl

theorem unrecognised_madeVerbose : p.madeVerbose.unrecognised = p.unrecognised.madeVerbose :=
  rfl

/-- That verbose output has been asked for makes no difference to how words are read. -/
theorem parse_madeVerbose (words : List Word) :
    p.madeVerbose.parse words = (p.parse words).madeVerbose := by
  fun_induction parse p words with
  | case1 p h => simp [parse, madeVerbose, h, Parsed.madeVerbose]
  | case2 p h => simp [parse, madeVerbose, h, Parsed.madeVerbose]
  | case3 p t rest ih => rw [parse, scripts_madeVerbose, ih]
  | case4 p rest ih => rw [parse, scripts_madeVerbose, ih]
  | case5 p t rest h => simp [parse, h, Parsed.madeVerbose]
  | case6 p t rest options h hh => simp [parse, h, hh, Parsed.madeVerbose]
  | case7 p t rest options h hh ih => simp [parse, h, hh, verbose_madeVerbose, ih]
  | case8 p rest => simp [parse, Parsed.madeVerbose]
  | case9 p rest ih => rw [parse, verbose_madeVerbose, ih]
  | case10 p name rest ih => rw [parse, encoding_madeVerbose, ih]
  | case11 p name rest ih => rw [parse, encoding_madeVerbose, ih]
  | case12 p o v rest => simp_all [parse, Parsed.madeVerbose]
  | case13 p rest => simp [parse, Parsed.madeVerbose]
  | case14 p rest ih => rw [parse, unrecognised_madeVerbose, ih]

end

end Progress

/-- The short option for verbose output. -/
def verboseOption : Text :=
  ['-', 'v']

theorem parseArguments_verboseOption (line : List Text) :
    parseArguments (verboseOption :: line) = (parseArguments line).madeVerbose := by
  have hw : wordsOf (verboseOption :: line) = .letters ['v'] :: wordsOf line := by
    rw [wordsOf, if_neg (by decide)]
    rfl
  have hl : letterChoices ['v'] = some [.verbose] := by decide
  have hm : Word.ambiguous ∈ Word.letters ['v'] :: wordsOf line ↔ Word.ambiguous ∈ wordsOf line := by
    simp
  unfold parseArguments
  simp only [hw, hm]
  split
  · rfl
  · rw [Progress.parse]
    simp only [hl]
    -- Nothing has been read before the option, so scripts may still stand anywhere.
    exact Progress.parse_madeVerbose {} (wordsOf line)

section

variable (around : Surroundings)

theorem sameButLog_promptCommand (logs logs' : Log.Registry) :
    SameButLog (promptCommand around logs) (promptCommand around logs') := by
  obtain ⟨hr, hw⟩ := sameButLog_prompt logs logs' around.input
  unfold promptCommand
  rcases hp : prompt logs around.input with ⟨t, r⟩
  rcases hp' : prompt logs' around.input with ⟨t', r'⟩
  rw [hp, hp'] at hr hw
  obtain rfl : r = r' := hr
  cases r with
  | ok s => exact ⟨rfl, hw⟩
  | error i =>
    refine ⟨rfl, ?_⟩
    simp only [withoutLog_append]
    rw [hw]

theorem sameButLog_scriptCommand (logs logs' : Log.Registry) (path : Text)
    (encoding : EncodingChoice) :
    SameButLog (scriptCommand around logs path encoding)
      (scriptCommand around logs' path encoding) := by
  obtain ⟨hr, hw⟩ :=
    sameButLog_runFile logs logs' around.logger around.files path encoding around.codecs
  unfold scriptCommand
  rcases hp : runFile logs around.logger around.files path encoding around.codecs with ⟨t, r⟩
  rcases hp' : runFile logs' around.logger around.files path encoding around.codecs with ⟨t', r'⟩
  rw [hp, hp'] at hr hw
  obtain rfl : r = r' := hr
  cases r <;> exact ⟨rfl, hw⟩

theorem sameButLog_carryOut_madeVerbose (a : Arguments) :
    SameButLog (carryOut around a.madeVerbose) (carryOut around a) := by
  unfold carryOut
  simp only [Arguments.madeVerbose]
  split
  · exact sameButLog_promptCommand around _ _
  · exact sameButLog_scriptCommand around _ _ _ _
  · exact SameButLog.refl _

end

theorem sameButLog_startCommand_verboseOption (start : Start) (codecs : Codecs)
    (files : FileSystem) (input : Input) (line : List Text) :
    SameButLog (startCommand start codecs files input (verboseOption :: line))
      (startCommand start codecs files input line) := by
  have hr : ∀ around, SameButLog (runCommand around (verboseOption :: line))
      (runCommand around line) := by
    intro around
    unfold runCommand
    rw [parseArguments_verboseOption]
    cases parseArguments line with
    | arguments a => exact sameButLog_carryOut_madeVerbose around a
    | help | misuse => exact SameButLog.refl _
  obtain ⟨he, hw⟩ := hr { files, input, codecs, logger := start.logger }
  exact ⟨congrArg start.ending he, hw⟩

end Command

/-! ## Runs without a log -/

/-- The loggers of the scanner and of the command take no debug records. -/
def IsQuiet (logs : Log.Registry) (command : Text) : Prop :=
  ∀ name ∈ [scanLogger, command], logs.isEnabled name .debug = false

theorem isQuiet_programLogs (start : Command.Start) :
    IsQuiet (programLogs start.logger Log.usual) start.logger := by
  unfold IsQuiet
  cases start <;> decide +kernel

section

variable {logs : Log.Registry} {command : Text} (h : IsQuiet logs command)

include h

theorem logged_eq_nil {records : List Log.Record}
    (hr : ∀ e ∈ records, e.logger ∈ [scanLogger, command] ∧ e.severity = .debug) :
    logged logs records = [] := by
  refine List.flatMap_eq_nil_iff.2 fun e he => ?_
  obtain ⟨hl, hs⟩ := hr e he
  have hd := h e.logger hl
  rw [← hs] at hd
  simp [Log.Registry.lines, hd]

theorem logged_scanRecords_eq_nil (source : Text) : logged logs (scanRecords source) = [] := by
  refine logged_eq_nil h fun e he => ?_
  rcases List.mem_append.1 he with he | he
  · obtain ⟨_, -, rfl⟩ := List.mem_map.1 he
    exact ⟨List.mem_cons_self, rfl⟩
  · rw [List.mem_singleton.1 he]
    exact ⟨List.mem_cons_self, rfl⟩

theorem logged_readRecord_eq_nil (path source : Text) :
    logged logs [readRecord path source] = [] :=
  logged_eq_nil h (by simp [readRecord])

theorem logged_failedRecord_eq_nil (path : Text) (f : OpenFailure) :
    logged logs [failedRecord command path f] = [] :=
  logged_eq_nil h (by simp [failedRecord])

theorem withoutLog_run_of_isQuiet (source : Text) :
    (run logs source).withoutLog = run logs source := by
  rw [withoutLog_run, run, logged_scanRecords_eq_nil h, List.nil_append]

theorem withoutLog_runFile_of_isQuiet (files : FileSystem) (path : Text)
    (encoding : EncodingChoice) (codecs : Codecs) :
    (runFile logs command files path encoding codecs).1.withoutLog =
      (runFile logs command files path encoding codecs).1 := by
  unfold runFile
  split
  · rw [logged_readRecord_eq_nil h]
    exact withoutLog_run_of_isQuiet h _
  · rw [logged_failedRecord_eq_nil h]
    rfl
  · rfl

end

namespace Command

section

variable (around : Surroundings) {logs : Log.Registry}

theorem withoutLog_promptCommand_of_isQuiet {command : Text} (h : IsQuiet logs command) :
    (promptCommand around logs).1.withoutLog = (promptCommand around logs).1 := by
  have hw := withoutLog_prompt logs around.input fun _ _ => logged_scanRecords_eq_nil h _
  unfold promptCommand
  rcases hp : prompt logs around.input with ⟨t, r⟩
  rw [hp] at hw
  cases r with
  | ok s => exact hw
  | error i =>
    simp only [withoutLog_append]
    rw [hw]
    rfl

theorem withoutLog_scriptCommand_of_isQuiet (h : IsQuiet logs around.logger) (path : Text)
    (encoding : EncodingChoice) :
    (scriptCommand around logs path encoding).1.withoutLog =
      (scriptCommand around logs path encoding).1 := by
  have hw := withoutLog_runFile_of_isQuiet h around.files path encoding around.codecs
  unfold scriptCommand
  rcases hp : runFile logs around.logger around.files path encoding around.codecs with ⟨t, r⟩
  rw [hp] at hw
  cases r <;> exact hw

end

/-- Without verbose output there is no log. -/
theorem withoutLog_startCommand (start : Start) (codecs : Codecs) (files : FileSystem)
    (input : Input) {line : List Text} (hl : (parseArguments line).isVerbose = false) :
    (startCommand start codecs files input line).1.withoutLog =
      (startCommand start codecs files input line).1 := by
  have hq := isQuiet_programLogs start
  simp only [startCommand, runCommand]
  cases ha : parseArguments line with
  | arguments a =>
    rw [ha] at hl
    have hlogs : a.logs (programLogs start.logger Log.usual) = programLogs start.logger Log.usual :=
      if_neg (by simpa [Parsed.isVerbose] using hl)
    simp only [carryOut, hlogs]
    split
    · exact withoutLog_promptCommand_of_isQuiet _ hq
    · exact withoutLog_scriptCommand_of_isQuiet _ hq _ _
    · rfl
  | help | misuse => rfl

/-- An option for verbose output in front of a command line changes nothing but the log. However the
command is started, and whatever encodings the platform has, it ends in the same way and writes the
same on both streams, apart from the log on the error stream, and in the same order. Unless the rest
of the line asks for verbose output itself, the run without the option has no log, so that its error
stream is what it is without one. -/
theorem verbose_option_only_adds_log (start : Start) (codecs : Codecs) (files : FileSystem)
    (input : Input) (line : List Text) :
    let verbose := startCommand start codecs files input (verboseOption :: line)
    let plain := startCommand start codecs files input line
    verbose.2 = plain.2 ∧ verbose.1.out = plain.1.out ∧
      verbose.1.withoutLog = plain.1.withoutLog ∧
      verbose.1.withoutLog.err = plain.1.withoutLog.err ∧
      ((parseArguments line).isVerbose = false → plain.1.withoutLog.err = plain.1.err) := by
  intro verbose plain
  have h : SameButLog verbose plain :=
    sameButLog_startCommand_verboseOption start codecs files input line
  refine ⟨h.result, h.out_eq, h.written, ?_, fun hl => ?_⟩
  · rw [h.written]
  · rw [withoutLog_startCommand start codecs files input hl]

/-- The only error of a file stays when the log around it is taken away. -/
theorem verbose_option_before_file :
    let line := ["--enc".toList, "ascii".toList, ['a']]
    let files : FileSystem := fun _ => .ok [0x40]
    let start := fun line => (startCommand .asScript .builtIn files { text := [] } line).1
    (parseArguments line).isVerbose = false ∧
      (start (verboseOption :: line)).withoutLog.err = (start line).err := by
  intro line files start
  have hquiet : (parseArguments line).isVerbose = false := by decide +kernel
  obtain ⟨-, -, -, herr, hplain⟩ :=
    verbose_option_only_adds_log .asScript .builtIn files { text := [] } line
  exact ⟨hquiet, herr.trans (hplain hquiet)⟩

/-- Where the line itself asks for verbose output, what is left of the error stream without the log is
not what the run without the option writes there: that run has a log too. -/
theorem verbose_option_before_another :
    let input : Input := { text := ['a', '\n'] }
    let files : FileSystem := fun _ => .error .notFound
    (startCommand .called .builtIn files input [verboseOption, verboseOption]).1.withoutLog.err ≠
      (startCommand .called .builtIn files input [verboseOption]).1.err := by
  decide +kernel

end Command

end ScriptLexer
