import ScriptLexer.Files.Tree
import ScriptLexer.Proofs.PrintedRuns
import ScriptLexer.Proofs.Utf8Decoding
import ScriptLexer.Run.File

/-! # Scripts in files

A file that holds a text in UTF-8 is scanned and run like the text itself: the text comes back from
the bytes with every line end, every NUL and any mark at its beginning as it was. Running the file
logs that it was read; nothing else is different. -/

namespace ScriptLexer

/-- A path at which a file with this contents can be opened. No file has a NUL in its path. -/
def IsReadable (files : FileSystem) (path : Text) (contents : Bytes) : Prop :=
  '\x00' ∉ path ∧ files path = .ok contents

/-- The choice comes to UTF-8. -/
def EncodingChoice.IsUtf8 (choice : EncodingChoice) (codecs : Codecs := .builtIn) : Prop :=
  choice.decoder codecs = .ok (.ok Encoding.utf8.decoder)

theorem Codecs.named_utf8 : Codecs.builtIn.named "utf-8".toList = .ok Encoding.utf8.decoder := by
  have hn : Encoding.ofName "utf-8".toList = .ok .utf8 := by decide +kernel
  have hl : "utf-8".toList ≠ "locale".toList := by decide
  rw [named, if_neg hl, builtIn]
  simp only [hn, Except.map]

theorem isUtf8_platform : EncodingChoice.platform.IsUtf8 :=
  congrArg Except.ok Codecs.named_utf8

theorem isUtf8_named : (EncodingChoice.named "utf-8".toList).IsUtf8 := by
  have hn : '\x00' ∉ "utf-8".toList := by decide
  rw [EncodingChoice.IsUtf8, EncodingChoice.decoder, if_neg hn, Codecs.named_utf8]

variable {files : FileSystem} {path source : Text} {choice : EncodingChoice} {bytes : Bytes}
  {codecs : Codecs}

theorem readScript_utf8 (hf : IsReadable files path bytes) (hc : choice.IsUtf8 codecs) :
    readScript files path choice codecs = .ok (Utf8.decode bytes) := by
  obtain ⟨hn, hf⟩ := hf
  unfold EncodingChoice.IsUtf8 at hc
  simp only [readScript, hc, hf, if_neg hn, Encoding.decoder, Except.mapError]

theorem scanFile_utf8 (hf : IsReadable files path bytes) (hc : choice.IsUtf8 codecs) :
    scanFile files path choice codecs = .ok (scan (Utf8.decode bytes)) := by
  rw [scanFile, readScript_utf8 hf hc]
  rfl

theorem runFile_utf8 (hf : IsReadable files path bytes) (hc : choice.IsUtf8 codecs)
    (logs : Log.Registry) (command : Text) :
    runFile logs command files path choice codecs =
      (logged logs [readRecord path (Utf8.decode bytes)] ++ run logs (Utf8.decode bytes),
        .ok (scan (Utf8.decode bytes)).status) := by
  rw [runFile, readScript_utf8 hf hc]

theorem scanFile_encode (hf : IsReadable files path (Utf8.encode source))
    (hc : choice.IsUtf8 codecs) : scanFile files path choice codecs = .ok (scan source) := by
  rw [scanFile_utf8 hf hc, Utf8.decode_encode]

theorem runFile_encode (hf : IsReadable files path (Utf8.encode source))
    (hc : choice.IsUtf8 codecs) (logs : Log.Registry) (command : Text) :
    runFile logs command files path choice codecs =
      (logged logs [readRecord path source] ++ run logs source, .ok (scan source).status) := by
  rw [runFile_utf8 hf hc, Utf8.decode_encode]

/-- The status says whether there are errors. -/
theorem Scan.status_eq (s : Scan) :
    s.status = if s.errors = [] then .success else .dataError := by
  unfold Scan.status Scan.hasErrors
  cases s.errors <;> rfl

/-- So does its number. -/
theorem Scan.code_status (s : Scan) : s.status.code = if s.errors = [] then 0 else 65 := by
  rw [s.status_eq]
  split <;> rfl

/-- A readable file that holds a text in UTF-8 scans to what the text scans to. Running it puts out
what running the text does, apart from one more line in the log, if the log takes it, and ends well
exactly if there is no error in the text. -/
theorem script_file_runs_like_its_text (hf : IsReadable files path (Utf8.encode source))
    (hc : choice.IsUtf8 codecs) :
    scanFile files path choice codecs = .ok (scan source) ∧
    ∀ (logs : Log.Registry) (command : Text),
      (runFile logs command files path choice codecs).1.out = (run logs source).out ∧
      (runFile logs command files path choice codecs).1.withoutLog = (run logs source).withoutLog ∧
      (logs.lines (readRecord path source) = [] →
        (runFile logs command files path choice codecs).1 = run logs source) ∧
      (runFile logs command files path choice codecs).2 = .ok (scan source).status ∧
      (scan source).status.code = if (scan source).errors = [] then 0 else 65 := by
  refine ⟨scanFile_encode hf hc, fun logs command => ?_⟩
  have hl := withoutLog_logged_append logs [readRecord path source] (run logs source)
  rw [runFile_encode hf hc]
  refine ⟨?_, hl, fun hn => ?_, rfl, (scan source).code_status⟩
  · rw [← out_withoutLog, hl, out_withoutLog]
  · simp [logged, hn]

/-- A script that opens with a mark, has line ends of every kind and a NUL in a string, and goes on
with characters of two and of four bytes. Its encoding may be asked for or left to the platform. -/
theorem marked_script_file_runs_like_its_text :
    let source := ['\uFEFF', '\x22', '\r', '\n', '\x00', '\x22', '\r', 'é', '\n', '😀']
    let bytes := [0xEF, 0xBB, 0xBF, 0x22, 0x0D, 0x0A, 0x00, 0x22, 0x0D, 0xC3, 0xA9, 0x0A, 0xF0, 0x9F,
      0x98, 0x80]
    let files := (FileTree.ofEntries [(['a', '/', 'b'], .file bytes)]).toFileSystem
    IsReadable files ['a', '/', 'b'] (Utf8.encode source) ∧
      scanFile files ['a', '/', 'b'] .platform = .ok (scan source) ∧
      scanFile files ['a', '/', 'b'] (.named "utf-8".toList) = .ok (scan source) := by
  intro source bytes files
  have hf : IsReadable files ['a', '/', 'b'] (Utf8.encode source) := by
    unfold IsReadable
    decide +kernel
  exact ⟨hf, (script_file_runs_like_its_text hf isUtf8_platform).1,
    (script_file_runs_like_its_text hf isUtf8_named).1⟩

end ScriptLexer
