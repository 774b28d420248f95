import ScriptLexer.Proofs.InputLines

/-! # Prompting for a text

A prompt asks for each line of its input, runs it by itself, and asks once more at the end. What it
puts out is what the lines put out, with the question before each; every error is reported on the
first line, since each line is a text of its own. As long as no line leaves anything open, nothing is
lost by that: the lines have the tokens and the errors of the whole input. -/

namespace ScriptLexer

/-! ## Streams of transcripts put together -/

theorem out_append (t u : Transcript) : Transcript.out (t ++ u) = t.out ++ u.out := by
  simp [Transcript.out]

theorem out_flatMap {α : Type} (f : α → Transcript) (l : List α) :
    Transcript.out (l.flatMap f) = l.flatMap fun a => (f a).out := by
  induction l with
  | nil => rfl
  | cons a l ih => rw [List.flatMap_cons, out_append, ih, List.flatMap_cons]

theorem errWithoutLog_append (t u : Transcript) :
    (Transcript.withoutLog (t ++ u)).err = t.withoutLog.err ++ u.withoutLog.err := by
  simp [Transcript.withoutLog, Transcript.err]

theorem errWithoutLog_flatMap {α : Type} (f : α → Transcript) (l : List α) :
    (Transcript.withoutLog (l.flatMap f)).err = l.flatMap fun a => (f a).withoutLog.err := by
  induction l with
  | nil => rfl
  | cons a l ih => rw [List.flatMap_cons, errWithoutLog_append, ih, List.flatMap_cons]

/-! ## What the prompt puts out -/

section

variable (logs : Log.Registry) (line : Text)

theorem out_promptOnce : (promptOnce logs line).out =
    promptText ++ (tokenLines (trimmedLine line)).flatMap Text.asLine := by
  rw [← out_run logs]
  rfl

theorem errWithoutLog_promptOnce : (promptOnce logs line).withoutLog.err =
    (errorLines (trimmedLine line)).flatMap Text.asLine := by
  rw [← err_run logs]
  rfl

variable (input : Input)

theorem out_prompt : (prompt logs input).1.out =
    ((inputLines input.text).flatMap fun line =>
      promptText ++ (tokenLines (trimmedLine line)).flatMap Text.asLine) ++ promptText := by
  simp only [prompt, out_append, out_flatMap, out_promptOnce]
  rfl

theorem errWithoutLog_prompt : (prompt logs input).1.withoutLog.err =
    ((inputLines input.text).flatMap fun line => errorLines (trimmedLine line)).flatMap
      Text.asLine := by
  simp only [prompt, errWithoutLog_append, errWithoutLog_flatMap, errWithoutLog_promptOnce,
    List.flatMap_assoc]
  exact List.append_nil _

theorem inputLines_err_prompt : inputLines (prompt logs input).1.withoutLog.err =
    (inputLines input.text).flatMap fun line => errorLines (trimmedLine line) := by
  rw [errWithoutLog_prompt]
  refine inputLines_flatMap_asLine fun t ht => ?_
  obtain ⟨line, -, ht⟩ := List.mem_flatMap.1 ht
  exact lineFeed_not_mem_errorLines _ t ht

end

/-- The beginning of what is reported for the first line. -/
def firstLineReport : Text :=
  "[line 1] Error: ".toList

theorem firstLineReport_isPrefix {t : Text} (h : '\n' ∉ t) {l : Text} (hl : l ∈ errorLines t) :
    firstLineReport <+: l := by
  obtain ⟨e, he, rfl⟩ := List.mem_map.1 hl
  obtain ⟨f, hf⟩ := exists_fault?_of_mem he
  have hr : firstLineReport = "[line ".toList ++ (Text.ofInt 1 ++ ']' :: " Error: ".toList) := by
    decide
  refine ⟨f.message, ?_⟩
  rw [LexError.written_eq hf, line_of_mem_errors h he, hr, List.append_assoc, List.append_assoc,
    List.cons_append]

/-- The prompt leaves nothing out of its transcript with the log, if the lines log nothing. -/
theorem withoutLog_prompt (logs : Log.Registry) (input : Input)
    (h : ∀ line ∈ inputLines input.text, logged logs (scanRecords (trimmedLine line)) = []) :
    (prompt logs input).1.withoutLog = (prompt logs input).1 := by
  refine List.filter_eq_self.2 fun o ho => ?_
  rcases List.mem_append.1 ho with ho | ho
  · obtain ⟨line, hl, ho⟩ := List.mem_flatMap.1 ho
    rw [promptOnce, run, h line hl, List.nil_append] at ho
    rcases List.mem_cons.1 ho with rfl | ho
    · rfl
    · rcases List.mem_append.1 ho with ho | ho <;> obtain ⟨-, -, rfl⟩ := List.mem_map.1 ho <;> rfl
  · rw [List.mem_singleton.1 ho]
    rfl

/-! ## Lines and the whole text -/

/-- The lines of a text have its tokens and its errors between them, the errors of each line moved
there from the first. -/
structure AgreesByLine (lines : List Text) (text : Text) : Prop where
  tokens : (lines.flatMap fun line => (scan (trimmedLine line)).tokensBeforeEnd).map Token.content =
    (scan text).tokensBeforeEnd.map Token.content
  errors : ((lines.zipIdx 1).flatMap fun a =>
    (scan (trimmedLine a.1)).errors.map (LexError.onLine a.2)) = (scan text).errors

theorem agreesByLine_inputLines {text : Text}
    (h : ∀ line ∈ inputLines text, NothingOpen (trimmedLine line)) :
    AgreesByLine (inputLines text) text := by
  obtain ⟨ps, hps, hg⟩ := exists_cut_of_lines h
  obtain ⟨ht, he⟩ := hg []
  rw [← tokensBeforeEnd_scan hps, List.flatMap_map] at ht
  rw [← errors_scan hps, Text.lineFeeds_nil, Nat.add_zero, List.zipIdx_map, List.flatMap_map] at he
  refine ⟨?_, he.symm⟩
  rw [ht, List.map_flatMap]
  refine List.flatMap_congr fun line _ => ?_
  rw [tokensBeforeEnd_scan (isCut_cut _)]

/-- The prompt ends well. For each line of its input it puts out the question and the tokens of the
line, then the question once more, and every error is reported on the first line. If no line leaves
anything open, the lines agree with the whole text. -/
theorem prompt_agrees_with_scan (logs : Log.Registry) (text : Text) :
    let lines := inputLines text
    let answer := prompt logs { text }
    IsLines text lines ∧
    answer.2 = .ok .success ∧ Status.success.code = 0 ∧
    answer.1.out = lines.flatMap (fun line =>
      promptText ++ (tokenLines (trimmedLine line)).flatMap Text.asLine) ++ promptText ∧
    (∀ line ∈ lines, ∀ t ∈ tokenLines (trimmedLine line), '\n' ∉ t) ∧
    inputLines answer.1.withoutLog.err =
      lines.flatMap (fun line => errorLines (trimmedLine line)) ∧
    (∀ l ∈ inputLines answer.1.withoutLog.err, firstLineReport <+: l) ∧
    ((∀ line ∈ lines, logged logs (scanRecords (trimmedLine line)) = []) →
      answer.1.withoutLog = answer.1) ∧
    ((∀ line ∈ lines, NothingOpen (trimmedLine line)) → AgreesByLine lines text) := by
  intro lines answer
  have hl : IsLines text lines := isLines_inputLines text
  have he : inputLines answer.1.withoutLog.err =
      lines.flatMap fun line => errorLines (trimmedLine line) := inputLines_err_prompt logs { text }
  have hf : ∀ l ∈ inputLines answer.1.withoutLog.err, firstLineReport <+: l := by
    intro l hm
    rw [he] at hm
    obtain ⟨line, hline, hm⟩ := List.mem_flatMap.1 hm
    exact firstLineReport_isPrefix (not_mem_trimmedLine (hl.unbroken line hline)) hm
  exact ⟨hl, rfl, rfl, out_prompt logs { text }, fun line _ => lineFeed_not_mem_tokenLines _, he, hf,
    withoutLog_prompt logs { text }, agreesByLine_inputLines⟩

/-- A line comment with carriage returns at its end, an empty line, a character that starts no lexeme
and a last line without a line feed, where nothing is logged. -/
theorem prompt_agrees_with_scan_of_four_lines :
    let text := ['a', '/', '/', ' ', 'b', '\r', '\r', '\n', '\n', '1', '@', '\r', '\n', '\x22', '/', '*',
      '\x22']
    (∀ line ∈ inputLines text, logged {} (scanRecords (trimmedLine line)) = []) ∧
    (prompt {} { text }).1.withoutLog = (prompt {} { text }).1 ∧
    (∀ line ∈ inputLines text, NothingOpen (trimmedLine line)) ∧
    AgreesByLine (inputLines text) text ∧
    (scan text).errors = [LexError.unexpectedCharacter '@' 3] := by
  intro text
  have hq : ∀ line ∈ inputLines text, logged {} (scanRecords (trimmedLine line)) = [] := by
    decide +kernel
  have ho : ∀ line ∈ inputLines text, NothingOpen (trimmedLine line) := by
    decide +kernel
  obtain ⟨-, -, -, -, -, -, -, hw, ha⟩ := prompt_agrees_with_scan {} text
  exact ⟨hq, hw hq, ho, ha ho, by decide +kernel⟩

end ScriptLexer
