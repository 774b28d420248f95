import ScriptLexer.Proofs.Lines
import ScriptLexer.Proofs.Rewriting

/-! # What means nothing may be blank

Comments and characters that start nothing have no tokens. Blanks in their place end the pieces in
front of them as they did, so nothing else in the text is read in another way: without its comments
a text scans to the same, and with spaces for its unexpected characters it scans to the same but for
the errors about them. The lines stay what they are as long as the line feeds do. -/

namespace ScriptLexer

/-! ## Comments -/

/-- The text of a piece if comments are left out. The line feeds of a block comment stay, behind a
space that keeps apart what the comment kept apart. The end of the line is no part of a line comment,
and a comment that is not closed is an error and stays. -/
def Piece.uncommented : Piece → Text
  | lineComment _ => []
  | blockComment body => ' ' :: List.replicate (Text.lineFeeds body) '\n'
  | p => p.text

theorem exists_rewrites_uncommented {p : Piece} {old : Text} (hf : p.Fits old) :
    ∃ qs, Rewrites {} old [p] p.uncommented qs := by
  cases p with
  | lineComment body =>
    have hb : '\n' ∉ body := hf.wellFormed
    have hn : '\n' ∉ (Piece.lineComment body).text := by simpa [Piece.text] using hb
    have hl : Text.lineFeeds [] = Text.lineFeeds (Piece.lineComment body).text :=
      (Text.lineFeeds_eq_zero hn).symm
    refine ⟨_, rewrites_blanks (t := []) (by simp) ?_ hl rfl fun _ => rfl⟩
    intro new hs
    exact hs.trans (Text.standsFor_lineEnd hf.endsBefore _)
  | blockComment body =>
    have hl : Text.lineFeeds (Piece.blockComment body).uncommented =
        Text.lineFeeds (Piece.blockComment body).text := by
      simp [Piece.uncommented, Piece.text, Text.lineFeeds]
    refine ⟨_, rewrites_blanks ?_ ?_ hl rfl fun _ => rfl⟩
    · simp [Piece.uncommented, isBlank]
    · intro new _
      exact Text.standsFor_of_plain (plain_of_isBlank rfl) (by decide)
  | _ => exact ⟨_, rewrites_kept hf (by simp) (by simp)⟩

/-- Writing a text without its comments. -/
def Rewriting.uncommenting : Rewriting where
  write _ p := p.uncommented
  exists_rewrites := exists_rewrites_uncommented

/-- Comments are blanks. A text has one cut by the grammar, and if the line comments in it are left
out and every closed block comment becomes a space and as many line feeds as it has, the text scans
to the same tokens and the same errors, each on its line. So does the lexer that goes through the text
step by step. -/
theorem comments_scan_like_blanks (source : Text) :
    ∃ ps, IsCut source ps ∧ (∀ qs, IsCut source qs → qs = ps) ∧
      scan (ps.flatMap Piece.uncommented) = scan source ∧
      ∃ ended, Lexer.tokenize { source := ps.flatMap Piece.uncommented } =
          (.ok (scan source).tokens, ended) ∧ ended.errors = (scan source).errors := by
  have hc := isCut_cut source
  have hs : scan ((cut source).flatMap Piece.uncommented) = scan source := by
    rw [← Rewriting.uncommenting.text_eq_flatMap fun _ _ => rfl, Rewriting.scan_text _ hc]
    simp [Scan.under, Rewriting.uncommenting]
  exact ⟨cut source, hc, fun qs hq => hq.eq_cut, hs, Lexer.tokenize_of_scan_eq hs⟩

/-- The space keeps the numbers apart. -/
example : (cut ['1', '/', '*', '\n', '*', '/', '2', '/', '/']).flatMap Piece.uncommented =
    ['1', ' ', '\n', '2'] := by
  decide +kernel

/-! ## Unexpected characters -/

/-- The text of a piece with a space in the place of a character that starts nothing. -/
def Piece.repaired : Piece → Text
  | stray _ => [' ']
  | p => p.text

/-- An error about something that is not closed. -/
def LexError.isUnclosed (e : LexError) : Bool :=
  e.fault? = some .unterminatedString ∨ e.fault? = some .unterminatedComment

/-- Only the errors about what is not closed are left. -/
def Effect.ofRepair : Effect where
  onError := Option.guard LexError.isUnclosed

theorem exists_rewrites_repaired {p : Piece} {old : Text} (hf : p.Fits old) :
    ∃ qs, Rewrites .ofRepair old [p] p.repaired qs := by
  have ht : ∀ line, p.token? line = (p.token? line).map Effect.ofRepair.onToken := by
    simp [Effect.ofRepair]
  cases p with
  | stray c =>
    have hs : IsStray c := hf.wellFormed
    have hn := hs.ne_lineFeed
    have hl : Text.lineFeeds [' '] = Text.lineFeeds [c] := (Text.lineFeeds_singleton hn).symm
    refine ⟨_, rewrites_blanks (by simp [Piece.repaired, isBlank]) ?_ hl rfl fun _ => rfl⟩
    intro new _
    exact Text.standsFor_of_plain (plain_of_isBlank rfl) fun h => absurd h hn
  | _ => exact ⟨_, rewrites_kept hf ht fun _ => rfl⟩

/-- Writing a text with spaces for its unexpected characters. -/
def Rewriting.repairing : Rewriting where
  effect := .ofRepair
  write _ p := p.repaired
  exists_rewrites := exists_rewrites_repaired

theorem unclosed?_isSome (e : LexError) : e.unclosed?.isSome = e.isUnclosed := by
  unfold LexError.unclosed? LexError.isUnclosed
  cases e.fault? with
  | none => rfl
  | some f => cases f <;> rfl

/-- Scanning reports one thing at most that is not closed. -/
theorem length_filter_isUnclosed_le (source : Text) :
    ((scan source).errors.filter LexError.isUnclosed).length ≤ 1 := by
  have hf : LexError.isUnclosed = fun e => e.unclosed?.isSome :=
    funext fun e => (unclosed?_isSome e).symm
  rw [← List.countP_eq_length_filter, hf, ← List.length_filterMap_eq_countP,
    filterMap_unclosed?_scan]
  cases (Mode.code.after source).fault? <;> simp

/-- Scanning goes on cleanly behind an unexpected character. The errors of a text are those of the
faulty pieces in its one cut. If each of these that is a single character becomes a space, the text
scans to the same tokens, and of its errors there is left the one about what is not closed, if there
is one, on the same line. The stepwise lexer gives the same. -/
theorem scan_resumes_behind_unexpected (source : Text) :
    ∃ ps, IsCut source ps ∧ (∀ qs, IsCut source qs → qs = ps) ∧
      List.Forall₂ (fun e a => a.piece.FaultIn source a.before e) (scan source).errors
        ((placed [] ps).filter fun a => a.piece.isFaulty) ∧
      (scan (ps.flatMap Piece.repaired)).tokens = (scan source).tokens ∧
      (scan (ps.flatMap Piece.repaired)).errors =
        (scan source).errors.filter LexError.isUnclosed ∧
      ((scan source).errors.filter LexError.isUnclosed).length ≤ 1 ∧
      ∃ ended, Lexer.tokenize { source := ps.flatMap Piece.repaired } =
          (.ok (scan source).tokens, ended) ∧
        ended.errors = (scan source).errors.filter LexError.isUnclosed := by
  have hc := isCut_cut source
  have hs : scan ((cut source).flatMap Piece.repaired) =
      ⟨(scan source).tokens, (scan source).errors.filter LexError.isUnclosed⟩ := by
    rw [← Rewriting.repairing.text_eq_flatMap fun _ _ => rfl, Rewriting.scan_text _ hc]
    simp [Scan.under, Rewriting.repairing, Effect.ofRepair]
  refine ⟨cut source, hc, fun qs hq => hq.eq_cut, ?_, ?_, ?_, length_filter_isUnclosed_le source,
    Lexer.tokenize_of_scan_eq hs⟩
  · rw [errors_scan hc]
    exact faultIn_errors hc
  · rw [hs]
  · rw [hs]

end ScriptLexer
