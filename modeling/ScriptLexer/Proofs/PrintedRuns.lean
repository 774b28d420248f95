import ScriptLexer.Proofs.Lexemes
import ScriptLexer.Proofs.Printing
import ScriptLexer.Run.Prompt

/-! # The lines of a run

A run prints a line for every token and a line for every error. No line has a break in it, so the
streams fall apart into these lines again, and with them what was scanned is known: of the tokens
all but their lines, of the errors what was wrong and where. -/

namespace ScriptLexer

/-- The characters that end a line. -/
def Text.lineBreaks : Text :=
  ['\n', '\x0b', '\x0c', '\r', '\x1c', '\x1d', '\x1e', '\x85', '\u2028', '\u2029']

theorem Text.not_mem_lineBreaks {c : Char} (h : isPrintable c = true) : c ∉ lineBreaks := by
  have hb : ∀ c ∈ lineBreaks, isPrintable c = false := forall_mem_of_all (by decide +kernel)
  intro hc
  rw [hb c hc] at h
  cases h

theorem Text.lineFeed_not_mem {t : Text} (h : ∀ c ∈ t, isPrintable c = true) : '\n' ∉ t :=
  fun hm => not_mem_lineBreaks (h _ hm) (by decide)

/-! ## Lines -/

theorem inputLines_asLine_append {t : Text} (h : '\n' ∉ t) (rest : Text) :
    inputLines (Text.asLine t ++ rest) = t :: inputLines rest := by
  induction t with
  | nil => rfl
  | cons c t ih =>
    obtain ⟨hc, ht⟩ := List.ne_and_not_mem_of_not_mem_cons h
    have hi := ih ht
    rw [Text.asLine] at hi ⊢
    rw [List.cons_append, List.cons_append, inputLines, hi]
    rintro rfl
    exact hc rfl

theorem inputLines_flatMap_asLine {ts : List Text} (h : ∀ t ∈ ts, '\n' ∉ t) :
    inputLines (ts.flatMap Text.asLine) = ts := by
  induction ts with
  | nil => rfl
  | cons t ts ih =>
    obtain ⟨ht, hts⟩ := List.forall_mem_cons.1 h
    rw [List.flatMap_cons, inputLines_asLine_append ht, ih hts]

theorem lineFeeds_flatMap_asLine {ts : List Text} (h : ∀ t ∈ ts, '\n' ∉ t) :
    Text.lineFeeds (ts.flatMap Text.asLine) = ts.length := by
  induction ts with
  | nil => rfl
  | cons t ts ih =>
    obtain ⟨ht, hts⟩ := List.forall_mem_cons.1 h
    have hl : Text.lineFeeds (Text.asLine t) = 1 := by
      rw [Text.asLine, Text.lineFeeds_append, Text.lineFeeds_eq_zero ht]
      rfl
    rw [List.flatMap_cons, Text.lineFeeds_append, hl, ih hts, List.length_cons, Nat.add_comm]

/-- Where one property of the elements settles another, so it does for lists of them. -/
theorem map_eq_map_of_forall {α β γ : Type} {f : α → β} {g : α → γ} {l l' : List α}
    (h : ∀ a ∈ l, ∀ b ∈ l', f a = f b → g a = g b) (he : l.map f = l'.map f) :
    l.map g = l'.map g := by
  induction l generalizing l' with
  | nil =>
    cases l' with
    | nil => rfl
    | cons => cases he
  | cons a l ih =>
    cases l' with
    | nil => cases he
    | cons b l' =>
      obtain ⟨hab, hl⟩ := List.cons.inj he
      rw [List.map_cons, List.map_cons, h a (by simp) b (by simp) hab,
        ih (fun x hx y hy => h x (by simp [hx]) y (by simp [hy])) hl]

/-! ## Tokens of a scan -/

/-- The listing of a token says nothing of its line. -/
theorem map_written_of_map_content {ts us : List Token}
    (h : ts.map Token.content = us.map Token.content) :
    ts.map Token.written = us.map Token.written := by
  refine map_eq_map_of_forall (fun t _ u _ htu => ?_) h
  obtain ⟨hk, hl, hv⟩ : t.kind = u.kind ∧ t.lexeme = u.lexeme ∧ t.literal = u.literal := by
    simpa [Token.content] using htu
  rw [Token.written_inj, hk, hl, hv, Literal.alike_iff]
  exact ⟨rfl, rfl, rfl⟩

theorem map_content_of_map_lexeme {source source' : Text}
    (h : (scan source).tokens.map Token.lexeme = (scan source').tokens.map Token.lexeme) :
    (scan source).tokens.map Token.content = (scan source').tokens.map Token.content := by
  have hr := readAlone_readTokens (isCut_cut source) []
  have hr' := readAlone_readTokens (isCut_cut source') []
  rw [tokens_scan (isCut_cut source), tokens_scan (isCut_cut source')] at h ⊢
  rw [List.map_append, List.map_append] at h ⊢
  -- Both lists end with the token for the end of the text.
  have hl := List.append_cancel_right h
  rw [map_lexeme_of_readAlone hr, map_lexeme_of_readAlone hr'] at hl
  rw [← hl] at hr'
  rw [content_eq_of_readAlone hr hr']
  rfl

theorem map_written_tokens_iff (source source' : Text) :
    (scan source).tokens.map Token.written = (scan source').tokens.map Token.written ↔
      (scan source).tokens.map Token.content = (scan source').tokens.map Token.content := by
  constructor
  · intro h
    refine map_content_of_map_lexeme (map_eq_map_of_forall (fun t _ u _ htu => ?_) h)
    exact (Token.written_inj.1 htu).2.1
  · exact map_written_of_map_content

/-! ## Errors of a scan -/

/-- What an error is called, and where it is. -/
def LexError.place (e : LexError) : Text × Int :=
  (e.name, e.line)

theorem exists_fault?_of_mem {source : Text} {e : LexError} (h : e ∈ (scan source).errors) :
    ∃ f, e.fault? = some f := by
  rw [errors_scan (isCut_cut source)] at h
  obtain ⟨a, -, ha⟩ := List.mem_filterMap.1 h
  obtain ⟨before, p⟩ := a
  cases p <;> cases ha
  · exact ⟨.unterminatedComment, rfl⟩
  · exact ⟨.unterminatedString, rfl⟩
  · exact ⟨.unexpectedCharacter, rfl⟩

namespace LexError

theorem written_eq {e : LexError} {f : Fault} (h : e.fault? = some f) :
    e.written = "[line ".toList ++ (Text.ofInt e.line ++ ']' :: (" Error: ".toList ++ f.message)) := by
  have hm : e.message = f.message := by
    obtain ⟨cause, line⟩ := e
    cases cause <;> cases h <;> rfl
  have hc : Text.capitalized "error".toList = "Error".toList := by decide
  unfold written Diagnostic.written diagnostic
  dsimp only
  rw [hm, hc]
  simp only [List.append_assoc]
  rfl

theorem place_eq {e : LexError} {f : Fault} (h : e.fault? = some f) :
    e.place = (f.name, e.line) := by
  rw [place, name, h]

theorem written_inj {e e' : LexError} {f f' : Fault} (h : e.fault? = some f)
    (h' : e'.fault? = some f') : e.written = e'.written ↔ e.place = e'.place := by
  have hb : ∀ n : Int, ']' ∉ Text.ofInt n := fun n hn =>
    (plain_of_mem_valueCharacters _ (mem_valueCharacters_of_mem_ofInt _ hn)).2.2.2.2 rfl
  -- The faults have messages and names of their own.
  have hf : ∀ f f' : Fault, f.message = f'.message ↔ f.name = f'.name := by
    intro f f'
    cases f <;> cases f' <;> decide
  rw [written_eq h, written_eq h', place_eq h, place_eq h']
  constructor
  · intro he
    obtain ⟨hn, hm⟩ := append_cons_inj (hb e.line) (hb e'.line) (List.append_cancel_left he)
    rw [(hf f f').1 (List.append_cancel_left hm), Text.ofInt_inj.1 hn]
  · intro he
    obtain ⟨he, hn⟩ := Prod.mk.inj he
    rw [(hf f f').2 he, hn]

theorem isPrintable_of_mem_written {e : LexError} {f : Fault} (h : e.fault? = some f) :
    ∀ c ∈ e.written, Text.isPrintable c = true := by
  have hf : ∀ c ∈ f.message, Text.isPrintable c = true := by
    cases f <;> exact Text.forall_mem_of_all (by decide)
  rw [written_eq h]
  refine List.forall_mem_append.2 ⟨Text.forall_mem_of_all (by decide), List.forall_mem_append.2
    ⟨isPrintable_of_mem_ofInt, List.forall_mem_cons.2 ⟨by decide, ?_⟩⟩⟩
  exact List.forall_mem_append.2 ⟨Text.forall_mem_of_all (by decide), hf⟩

end LexError

theorem map_written_errors_iff (source source' : Text) :
    (scan source).errors.map LexError.written = (scan source').errors.map LexError.written ↔
      (scan source).errors.map LexError.place = (scan source').errors.map LexError.place := by
  have h : ∀ e ∈ (scan source).errors, ∀ e' ∈ (scan source').errors,
      (e.written = e'.written ↔ e.place = e'.place) := by
    intro e he e' he'
    obtain ⟨f, hf⟩ := exists_fault?_of_mem he
    obtain ⟨f', hf'⟩ := exists_fault?_of_mem he'
    exact LexError.written_inj hf hf'
  constructor
  · exact map_eq_map_of_forall fun e he e' he' => (h e he e' he').1
  · exact map_eq_map_of_forall fun e he e' he' => (h e he e' he').2

/-! ## Streams -/

/-- The lines of a scan on the output stream. -/
def tokenLines (source : Text) : List Text :=
  (scan source).tokens.map Token.written

/-- The lines of a scan on the error stream. -/
def errorLines (source : Text) : List Text :=
  (scan source).errors.map LexError.written

theorem lineFeed_not_mem_tokenLines (source : Text) : ∀ t ∈ tokenLines source, '\n' ∉ t := by
  intro t ht
  obtain ⟨u, -, rfl⟩ := List.mem_map.1 ht
  exact Text.lineFeed_not_mem u.isPrintable_of_mem_written

theorem lineFeed_not_mem_errorLines (source : Text) : ∀ t ∈ errorLines source, '\n' ∉ t := by
  intro t ht
  obtain ⟨e, he, rfl⟩ := List.mem_map.1 ht
  obtain ⟨f, hf⟩ := exists_fault?_of_mem he
  exact Text.lineFeed_not_mem (LexError.isPrintable_of_mem_written hf)

theorem isLog_of_mem_logged {logs : Log.Registry} {records : List Log.Record} {o : Output}
    (h : o ∈ logged logs records) : o.isLog = true := by
  obtain ⟨r, -, hr⟩ := List.mem_flatMap.1 h
  obtain ⟨t, -, rfl⟩ := List.mem_map.1 hr
  rfl

theorem out_report (s : Scan) :
    (report s).out = (s.tokens.map Token.written).flatMap Text.asLine := by
  simp [report, Transcript.out, List.filter_map, List.flatMap_map, Function.comp_def, Output.isOut,
    Output.text]

theorem err_report (s : Scan) :
    (report s).err = (s.errors.map LexError.written).flatMap Text.asLine := by
  simp [report, Transcript.err, List.filter_map, List.flatMap_map, Function.comp_def, Output.isOut,
    Output.text]

theorem withoutLog_logged_append (logs : Log.Registry) (records : List Log.Record)
    (t : Transcript) : Transcript.withoutLog (logged logs records ++ t) = t.withoutLog := by
  have hl : (logged logs records).filter (fun o => !o.isLog) = [] := by
    refine List.filter_eq_nil_iff.2 fun o ho => ?_
    simp [isLog_of_mem_logged ho]
  rw [Transcript.withoutLog, List.filter_append, hl, List.nil_append, Transcript.withoutLog]

section

variable (logs : Log.Registry) (source : Text)

theorem withoutLog_run : (run logs source).withoutLog = report (scan source) := by
  rw [run, withoutLog_logged_append]
  refine List.filter_eq_self.2 fun o ho => ?_
  rcases List.mem_append.1 ho with h | h <;> obtain ⟨-, -, rfl⟩ := List.mem_map.1 h <;> rfl

/-- Nothing of the log is on the output stream. -/
theorem out_withoutLog (t : Transcript) : t.withoutLog.out = t.out := by
  rw [Transcript.out, Transcript.withoutLog, List.filter_filter]
  refine congrArg (List.flatMap Output.text) (List.filter_congr fun o _ => ?_)
  cases o <;> rfl

theorem out_run : (run logs source).out = (tokenLines source).flatMap Text.asLine := by
  rw [← out_withoutLog, withoutLog_run, out_report, tokenLines]

theorem err_run : (run logs source).withoutLog.err = (errorLines source).flatMap Text.asLine := by
  rw [withoutLog_run, err_report, errorLines]

theorem inputLines_out_run : inputLines (run logs source).out = tokenLines source := by
  rw [out_run, inputLines_flatMap_asLine (lineFeed_not_mem_tokenLines source)]

theorem inputLines_err_run : inputLines (run logs source).withoutLog.err = errorLines source := by
  rw [err_run, inputLines_flatMap_asLine (lineFeed_not_mem_errorLines source)]

theorem lineFeeds_out_run : Text.lineFeeds (run logs source).out = (scan source).tokens.length := by
  rw [out_run, lineFeeds_flatMap_asLine (lineFeed_not_mem_tokenLines source), tokenLines,
    List.length_map]

theorem lineFeeds_err_run :
    Text.lineFeeds (run logs source).withoutLog.err = (scan source).errors.length := by
  rw [err_run, lineFeeds_flatMap_asLine (lineFeed_not_mem_errorLines source), errorLines,
    List.length_map]

variable (logs' : Log.Registry) (source' : Text)

theorem out_run_eq_iff : (run logs source).out = (run logs' source').out ↔
    (scan source).tokens.map Token.content = (scan source').tokens.map Token.content := by
  rw [← map_written_tokens_iff]
  constructor
  · intro h
    rw [← tokenLines, ← inputLines_out_run logs, h, inputLines_out_run, tokenLines]
  · intro h
    rw [out_run, out_run, tokenLines, h, tokenLines]

theorem err_run_eq_iff : (run logs source).withoutLog.err = (run logs' source').withoutLog.err ↔
    (scan source).errors.map LexError.place = (scan source').errors.map LexError.place := by
  rw [← map_written_errors_iff]
  constructor
  · intro h
    rw [← errorLines, ← inputLines_err_run logs, h, inputLines_err_run, errorLines]
  · intro h
    rw [err_run, err_run, errorLines, h, errorLines]

end

/-- Printed tokens are different wherever the tokens are, up to their lines in the short form, and
none has a break in it. So the output of a run has one line for each token and the errors, without the
log, one line for each error, and they are the same for two runs exactly when the tokens are, lines
apart, and when the errors have the same names on the same lines. -/
theorem printed_runs_faithful :
    (∀ a b : Token,
      (a.written = b.written ↔
        a.kind = b.kind ∧ a.lexeme = b.lexeme ∧ Literal.Alike a.literal b.literal) ∧
      (a.writtenInFull = b.writtenInFull ↔
        a.kind = b.kind ∧ a.lexeme = b.lexeme ∧ Literal.Alike a.literal b.literal ∧
          a.line = b.line)) ∧
    (∀ a : Token, ∀ t ∈ [a.written, a.writtenInFull], ∀ c ∈ t,
      Text.isPrintable c = true ∧ c ∉ Text.lineBreaks) ∧
    ∀ (logs : Log.Registry) (source : Text),
      inputLines (run logs source).out = (scan source).tokens.map Token.written ∧
      Text.lineFeeds (run logs source).out = (scan source).tokens.length ∧
      inputLines (run logs source).withoutLog.err = (scan source).errors.map LexError.written ∧
      Text.lineFeeds (run logs source).withoutLog.err = (scan source).errors.length ∧
      ∀ (logs' : Log.Registry) (source' : Text),
        ((run logs source).out = (run logs' source').out ↔
          (scan source).tokens.map Token.content = (scan source').tokens.map Token.content) ∧
        ((run logs source).withoutLog.err = (run logs' source').withoutLog.err ↔
          (scan source).errors.map LexError.place = (scan source').errors.map LexError.place) := by
  refine ⟨fun a b => ⟨Token.written_inj, Token.writtenInFull_inj⟩, ?_, ?_⟩
  · intro a t ht c hc
    have hp : Text.isPrintable c = true := by
      rcases List.mem_pair.1 ht with rfl | rfl
      · exact a.isPrintable_of_mem_written c hc
      · exact a.isPrintable_of_mem_writtenInFull c hc
    exact ⟨hp, Text.not_mem_lineBreaks hp⟩
  · intro logs source
    refine ⟨inputLines_out_run logs source, lineFeeds_out_run logs source,
      inputLines_err_run logs source, lineFeeds_err_run logs source, fun logs' source' => ?_⟩
    exact ⟨out_run_eq_iff logs source logs' source', err_run_eq_iff logs source logs' source'⟩

end ScriptLexer
