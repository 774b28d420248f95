import ScriptLexer.Command.Basic
import ScriptLexer.Proofs.Prompting

/-! # Endings of the command

Help, misuse, too many scripts and the prompt all end with a status of their own, and so does a script
that is read or cannot be opened. Only a script that is not even looked for, or is opened and then
turns out not to be text in the encoding asked for, ends the command without a status. Which
encodings there are is up to the platform; the endings are the same on all. -/

namespace ScriptLexer

/-- Whether a script cannot be read because its file cannot be opened. -/
def ReadFailure.isOfOpening : ReadFailure → Bool
  | cannotOpen _ _ => true
  | _ => false

/-- A script can be asked for by this path and with this encoding, and what is found at the path, if
anything is, is text in the encoding, as the platform has it. -/
def IsDecodable (codecs : Codecs) (files : FileSystem) (path : Text) (choice : EncodingChoice) :
    Prop :=
  '\x00' ∉ path ∧ ∃ found, choice.decoder codecs = .ok found ∧
    ∀ bytes, files path = .ok bytes →
      ∃ decode source, found = .ok decode ∧ decode bytes = .ok source

section

variable {codecs : Codecs} {files : FileSystem} {path : Text} {choice : EncodingChoice}

/-- What is decodable is read, unless the path leads to no readable file. -/
theorem readScript_of_isDecodable (h : IsDecodable codecs files path choice) :
    (∃ source, readScript files path choice codecs = .ok source) ∨
    ∃ f, files path = .error f ∧
      readScript files path choice codecs = .error (.cannotOpen path f) := by
  obtain ⟨hp, found, he, hd⟩ := h
  cases hf : files path with
  | error f =>
    refine .inr ⟨f, rfl, ?_⟩
    simp only [readScript, he, if_neg hp, hf]
  | ok bytes =>
    obtain ⟨decode, source, rfl, hs⟩ := hd bytes hf
    refine .inl ⟨source, ?_⟩
    simp only [readScript, he, if_neg hp, hf, hs, Except.mapError]

theorem isOfOpening_ofDecoding (e : Encoding.DecodeError) :
    (ReadFailure.ofDecoding e).isOfOpening = false := by
  cases e <;> rfl

/-- What is not decodable is not read, and not because of its file. -/
theorem readScript_of_not_isDecodable (h : ¬ IsDecodable codecs files path choice) :
    ∃ f, readScript files path choice codecs = .error f ∧ f.isOfOpening = false := by
  cases he : choice.decoder codecs with
  | error f =>
    refine ⟨f, by simp only [readScript, he], ?_⟩
    unfold EncodingChoice.decoder at he
    split at he
    · cases he
    · split at he <;> cases he
      rfl
    · cases he
      rfl
  | ok found =>
    by_cases hp : '\x00' ∈ path
    · exact ⟨.nulInPath, by simp only [readScript, he, if_pos hp], rfl⟩
    · cases hf : files path with
      | error f => exact absurd ⟨hp, found, he, fun _ hb => by rw [hf] at hb; cases hb⟩ h
      | ok bytes =>
        cases found with
        | error e => exact ⟨.noEncoding e, by simp only [readScript, he, if_neg hp, hf], rfl⟩
        | ok decode =>
          cases hs : decode bytes with
          | error e =>
            refine ⟨.ofDecoding e, ?_, isOfOpening_ofDecoding e⟩
            simp only [readScript, he, if_neg hp, hf, hs, Except.mapError]
          | ok source =>
            refine absurd ⟨hp, _, he, fun b hb => ?_⟩ h
            rw [hf] at hb
            cases hb
            exact ⟨decode, source, rfl, hs⟩

end

namespace Command

/-- The status that the command ends with, if it does. -/
def Ending.status? : Ending → Option Status
  | returned s | exited s => some s
  | failed _ => none

/-- The command line asks for one script. -/
def AsksFor (line : List Text) (path : Text) (encoding : EncodingChoice) : Prop :=
  ∃ a, parseArguments line = .arguments a ∧ a.scripts = [path] ∧ a.encoding = encoding

section

variable {around : Surroundings} {logs : Log.Registry} {path : Text} {encoding : EncodingChoice}

/-- The prompt ends well, interrupted or not. -/
theorem ending_promptCommand : (promptCommand around logs).2 = .returned .success := by
  unfold promptCommand prompt
  cases around.input.isInterrupted <;> rfl

theorem scriptCommand_of_ok {source : Text}
    (h : readScript around.files path encoding around.codecs = .ok source) :
    (scriptCommand around logs path encoding).2 = .returned (scan source).status := by
  simp only [scriptCommand, runFile, h]

theorem scriptCommand_of_cannotOpen {p : Text} {f : OpenFailure}
    (h : readScript around.files path encoding around.codecs = .error (.cannotOpen p f)) :
    (scriptCommand around logs path encoding).2 = .returned .noInput ∧
      (scriptCommand around logs path encoding).1.out = [] := by
  simp only [scriptCommand, runFile, h, true_and]
  rw [← out_withoutLog, withoutLog_logged_append]
  rfl

theorem scriptCommand_of_error {f : ReadFailure}
    (h : readScript around.files path encoding around.codecs = .error f)
    (hf : f.isOfOpening = false) :
    scriptCommand around logs path encoding = ([], .failed f) := by
  cases f with
  | cannotOpen => cases hf
  | _ => simp only [scriptCommand, runFile, h]

end

section

variable {start : Start} {codecs : Codecs} {files : FileSystem} {input : Input} {line : List Text}
  {path : Text} {encoding : EncodingChoice}

/-- A line that asks for one script runs it. -/
theorem startCommand_of_asksFor (start : Start) (codecs : Codecs) (files : FileSystem)
    (input : Input) (h : AsksFor line path encoding) :
    ∃ around : Surroundings, around.files = files ∧ around.codecs = codecs ∧ ∃ logs,
      startCommand start codecs files input line =
        ((scriptCommand around logs path encoding).1,
          start.ending (scriptCommand around logs path encoding).2) := by
  obtain ⟨a, ha, hs, rfl⟩ := h
  refine ⟨{ files, input, codecs, logger := start.logger }, rfl, rfl,
    a.logs (programLogs start.logger Log.usual), ?_⟩
  simp only [startCommand, runCommand, ha, carryOut, hs]

/-- A line that asks for no script, or for several, ends with a status. -/
theorem isSome_status?_of_not_asksFor (h : ∀ path encoding, ¬ AsksFor line path encoding) :
    (startCommand start codecs files input line).2.status?.isSome = true := by
  simp only [startCommand, runCommand]
  cases ha : parseArguments line with
  | arguments a =>
    simp only [carryOut]
    split
    · rw [ending_promptCommand]
      cases start <;> rfl
    · next path hs => exact absurd ⟨a, ha, hs, rfl⟩ (h path a.encoding)
    · cases start <;> rfl
  | help | misuse => cases start <;> rfl

theorem status?_ending (start : Start) (s : Status) :
    (start.ending (.returned s)).status? = some s := by
  cases start <;> rfl

/-- A script that is decodable is read or cannot be opened, and either has a status. -/
theorem isSome_status?_of_isDecodable (h : AsksFor line path encoding)
    (hd : IsDecodable codecs files path encoding) :
    (startCommand start codecs files input line).2.status?.isSome = true := by
  obtain ⟨around, rfl, rfl, logs, hr⟩ := startCommand_of_asksFor start codecs files input h
  rw [hr]
  rcases readScript_of_isDecodable hd with ⟨source, hs⟩ | ⟨f, -, hs⟩
  · simp only [scriptCommand_of_ok hs, status?_ending, Option.isSome_some]
  · simp only [(scriptCommand_of_cannotOpen hs).1, status?_ending, Option.isSome_some]

/-- A script that is not decodable leaves the command with the failure to read it. -/
theorem startCommand_of_not_isDecodable (h : AsksFor line path encoding)
    (hd : ¬ IsDecodable codecs files path encoding) :
    ∃ f, readScript files path encoding codecs = .error f ∧
      startCommand start codecs files input line = ([], .failed f) := by
  obtain ⟨around, rfl, rfl, logs, hr⟩ := startCommand_of_asksFor start codecs files input h
  obtain ⟨f, hs, hf⟩ := readScript_of_not_isDecodable hd
  refine ⟨f, hs, ?_⟩
  rw [hr, scriptCommand_of_error hs hf]
  cases start <;> rfl

theorem startCommand_of_cannotOpen {p : Text} {f : OpenFailure} (h : AsksFor line path encoding)
    (hs : readScript files path encoding codecs = .error (.cannotOpen p f)) :
    (startCommand start codecs files input line).2.status? = some .noInput ∧
      (startCommand start codecs files input line).1.out = [] := by
  obtain ⟨around, rfl, rfl, logs, hr⟩ := startCommand_of_asksFor start codecs files input h
  rw [hr, (scriptCommand_of_cannotOpen hs).1]
  exact ⟨status?_ending start _, (scriptCommand_of_cannotOpen hs).2⟩

end

/-- Whatever encodings the platform has, the command ends with a status exactly when no script is
asked for that is not decodable, and every status is one of four numbers. A script that cannot be read
leaves the output stream empty. If it is decodable, so that only its file is missing, the command ends
with the status for that; if it is not, the failure to read it leaves the command. -/
theorem command_ends_with_status_iff_decodable (start : Start) (codecs : Codecs)
    (files : FileSystem) (input : Input) (line : List Text) :
    let r := startCommand start codecs files input line
    (r.2.status?.isSome = true ↔
      ∀ path encoding, AsksFor line path encoding → IsDecodable codecs files path encoding) ∧
    (∀ s, r.2.status? = some s → s.code ∈ [0, 64, 65, 66]) ∧
    ∀ path encoding f, AsksFor line path encoding →
      readScript files path encoding codecs = .error f →
      r.1.out = [] ∧
      (IsDecodable codecs files path encoding → r.2.status?.map Status.code = some 66) ∧
      (¬ IsDecodable codecs files path encoding → r.2 = .failed f) := by
  refine ⟨⟨fun h path encoding ha => ?_, fun h => ?_⟩, fun s _ => by cases s <;> decide,
    fun path encoding f ha hs => ?_⟩
  · by_contra hd
    obtain ⟨f, -, hr⟩ := startCommand_of_not_isDecodable ha hd
    rw [hr] at h
    cases h
  · by_cases ha : ∃ path encoding, AsksFor line path encoding
    · obtain ⟨path, encoding, ha⟩ := ha
      exact isSome_status?_of_isDecodable ha (h path encoding ha)
    · exact isSome_status?_of_not_asksFor fun path encoding hp => ha ⟨path, encoding, hp⟩
  · by_cases hd : IsDecodable codecs files path encoding
    · rcases readScript_of_isDecodable hd with ⟨source, hs'⟩ | ⟨g, -, hs'⟩
      · rw [hs] at hs'
        cases hs'
      · obtain ⟨he, ho⟩ := startCommand_of_cannotOpen ha hs'
        exact ⟨ho, fun _ => by rw [he]; rfl, fun hn => absurd hd hn⟩
    · obtain ⟨g, hs', hr⟩ := startCommand_of_not_isDecodable ha hd
      rw [hs] at hs'
      cases hs'
      rw [hr]
      exact ⟨rfl, fun h => absurd h hd, fun _ => rfl⟩

/-- A directory is no script in any encoding. -/
theorem directory_is_no_script :
    let line := ["--enc".toList, "Latin 1".toList, ['d']]
    let files : FileSystem := fun _ => .error .isADirectory
    let latin1 := EncodingChoice.named "Latin 1".toList
    AsksFor line ['d'] latin1 ∧ IsDecodable .builtIn files ['d'] latin1 ∧
      readScript files ['d'] latin1 = .error (.cannotOpen ['d'] .isADirectory) ∧
      (startCommand .asScript .builtIn files { text := [] } line).1.out = [] ∧
      (startCommand .asScript .builtIn files { text := [] } line).2.status?.map Status.code =
        some 66 := by
  intro line files latin1
  have ha : AsksFor line ['d'] latin1 :=
    ⟨{ scripts := [['d']], encoding := latin1 }, by decide +kernel, rfl, rfl⟩
  have hd : IsDecodable .builtIn files ['d'] latin1 :=
    ⟨by decide, _, rfl, fun _ hb => nomatch hb⟩
  have hs : readScript files ['d'] latin1 = .error (.cannotOpen ['d'] .isADirectory) := by
    decide +kernel
  obtain ⟨-, -, hr⟩ :=
    command_ends_with_status_iff_decodable .asScript .builtIn files { text := [] } line
  obtain ⟨ho, h66, -⟩ := hr _ _ _ ha hs
  exact ⟨ha, hd, hs, ho, h66 hd⟩

/-- A name that no encoding has leaves the command without a status, although the file is there. -/
theorem command_fails_for_unknown_encoding :
    let r := startCommand .called .builtIn (fun _ => .ok [0x61]) { text := [] }
      [['a'], "--encoding=utf-9".toList]
    r = ([], .failed (.noEncoding (.unknown "utf-9".toList))) ∧ r.2.status? = none := by
  decide +kernel

end Command

end ScriptLexer
