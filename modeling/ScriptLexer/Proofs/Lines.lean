import ScriptLexer.Proofs.Placement
import ScriptLexer.Proofs.Tokenizing

/-! # Lines

The line of a token counts the line feeds before its lexeme, so that a string over several lines is
on the line of its opening quote. An unexpected character is on its own line. What is not closed is
reported on the last line, where the token for the end of the text is too. In the order of the text
these lines never go back. -/

namespace ScriptLexer

/-- The error that a piece behind `before` gives in `source`, if it is faulty. -/
def Piece.FaultIn (source before : Text) : Piece → LexError → Prop
  | stray c, e => e = LexError.unexpectedCharacter c (1 + Text.lineFeeds before : Nat)
  | openString _, e => e = LexError.unterminatedString (1 + Text.lineFeeds source : Nat)
  | openComment _, e => e = LexError.unterminatedComment (1 + Text.lineFeeds source : Nat)
  | _, _ => False

/-- A token at its place: its lexeme is in the text behind what is before it, and its line is that
of the first character of the lexeme. -/
structure Token.StandsAt (source : Text) (t : Token) (a : Place) : Prop where
  lexeme : t.lexeme = a.piece.text
  occurs : ∃ after, source = a.before ++ t.lexeme ++ after
  line : t.line = (1 + Text.lineFeeds a.before : Nat)

theorem line_le_of_mem_placed {before : Text} {ps : List Piece} {a : Place}
    (ha : a ∈ placed before ps) : 1 + Text.lineFeeds before ≤ a.line := by
  induction ps generalizing before with
  | nil => cases ha
  | cons p ps ih =>
    rcases List.mem_cons.1 ha with rfl | ha
    · exact Nat.le_refl _
    · have hl := ih ha
      rw [Text.lineFeeds_append] at hl
      omega

theorem Place.line_le_endLine (a : Place) : a.line ≤ a.endLine := by
  rw [endLine, line, Text.lineFeeds_append]
  omega

/-- A piece ends on a line before the next one starts, or on the same. -/
theorem pairwise_placed (before : Text) (ps : List Piece) :
    (placed before ps).Pairwise fun a b => a.endLine ≤ b.line := by
  induction ps generalizing before with
  | nil => exact .nil
  | cons p ps ih => exact .cons (fun b hb => line_le_of_mem_placed hb) (ih _)

/-- A placed piece that is faulty gives its error on the line where the piece ends. -/
theorem faultIn_of_error? {source : Text} {ps : List Piece} (h : IsCut source ps) {a : Place}
    (ha : a ∈ placed [] ps) {e : LexError} (he : a.piece.error? a.endLine = some e) :
    a.piece.FaultIn source a.before e := by
  obtain ⟨after, hf, hs⟩ := fits_of_mem_placed h ha
  obtain ⟨before, p⟩ := a
  cases p with
  | stray c =>
    have hs : IsStray c := hf.wellFormed
    -- The piece ends on the line where it starts.
    have hc : Text.lineFeeds [c] = 0 := Text.lineFeeds_singleton hs.ne_lineFeed
    cases he
    simp [Piece.FaultIn, Place.endLine, Piece.text, hc]
  | openString body | openComment body =>
    obtain rfl : after = [] := hf.endsBefore
    cases he
    simp only [List.nil_append, List.append_nil] at hs
    rw [Piece.FaultIn, hs, Place.endLine]
  | _ => cases he

/-- The tokens of a cut, each where it was read. -/
theorem standsAt_tokens {source : Text} {ps : List Piece} (h : IsCut source ps) :
    List.Forall₂ (Token.StandsAt source) (readTokens [] ps)
      ((placed [] ps).filter fun a => a.piece.isLexeme) := by
  refine (forall₂_readTokens [] ps).imp ?_
  rintro t a ⟨ha, ht⟩
  obtain ⟨hl, hn⟩ := Piece.lexeme_of_token? ht
  obtain ⟨after, -, hs⟩ := fits_of_mem_placed h ha
  exact ⟨hl, ⟨after, by rw [hl]; exact hs⟩, hn⟩

theorem faultIn_errors {source : Text} {ps : List Piece} (h : IsCut source ps) :
    List.Forall₂ (fun e a => a.piece.FaultIn source a.before e) (readErrors [] ps)
      ((placed [] ps).filter fun a => a.piece.isFaulty) := by
  refine (forall₂_readErrors [] ps).imp ?_
  rintro e a ⟨ha, he⟩
  exact faultIn_of_error? h ha he

theorem pairwise_token_lines (before : Text) (ps : List Piece) :
    (readTokens before ps).Pairwise fun t u => t.line ≤ u.line := by
  refine (pairwise_placed before ps).filterMap _ fun a b hab t ht u hu => ?_
  rw [(Piece.lexeme_of_token? ht).2, (Piece.lexeme_of_token? hu).2]
  have := a.line_le_endLine
  omega

theorem pairwise_error_lines (before : Text) (ps : List Piece) :
    (readErrors before ps).Pairwise fun e f => e.line ≤ f.line := by
  refine (pairwise_placed before ps).filterMap _ fun a b hab e he f hf => ?_
  rw [Piece.line_of_error? he, Piece.line_of_error? hf]
  have := b.line_le_endLine
  omega

/-- No token is behind the end of the text. -/
theorem token_line_le {source : Text} {ps : List Piece} (h : IsCut source ps) {t : Token}
    (ht : t ∈ readTokens [] ps) : t.line ≤ (1 + Text.lineFeeds source : Nat) := by
  obtain ⟨a, ha, ht⟩ := List.mem_filterMap.1 ht
  obtain ⟨after, -, hs⟩ := fits_of_mem_placed h ha
  rw [(Piece.lexeme_of_token? ht).2, Place.line]
  have hn := congrArg Text.lineFeeds hs
  simp only [List.nil_append, Text.lineFeeds_append] at hn
  omega

/-- Lines are exact. The tokens before the last are those of the lexemes in the cut of the text, in
their order, each on the line of its first character; the errors are those of its faulty pieces, in
their order, an unexpected character on its line and everything else on the last line; the token for
the end of the text is on the last line. Token lines and error lines never decrease. The stepwise
lexer, with its counters, gives the same tokens and errors. -/
theorem scan_lines_exact (source : Text) :
    ∃ ps tokens, IsCut source ps ∧
      (scan source).tokens = tokens ++ [Token.endOfText (1 + Text.lineFeeds source : Nat)] ∧
      List.Forall₂ (Token.StandsAt source) tokens
        ((placed [] ps).filter fun a => a.piece.isLexeme) ∧
      List.Forall₂ (fun e a => a.piece.FaultIn source a.before e) (scan source).errors
        ((placed [] ps).filter fun a => a.piece.isFaulty) ∧
      (scan source).tokens.Pairwise (fun t u => t.line ≤ u.line) ∧
      (scan source).errors.Pairwise (fun e f => e.line ≤ f.line) ∧
      ∃ ended, Lexer.tokenize { source } = (.ok (scan source).tokens, ended) ∧
        ended.errors = (scan source).errors := by
  have hc := isCut_cut source
  have hts := tokens_scan hc
  have hes := errors_scan hc
  obtain ⟨ended, ht, -, -, he, -⟩ := Lexer.tokenize_eq { source }
  refine ⟨cut source, _, hc, hts, standsAt_tokens hc, ?_, ?_, ?_, ended, ht, he⟩
  · rw [hes]
    exact faultIn_errors hc
  · rw [hts, List.pairwise_append]
    refine ⟨pairwise_token_lines [] _, List.pairwise_singleton _ _, fun t ht u hu => ?_⟩
    obtain rfl := List.mem_singleton.1 hu
    exact token_line_le hc ht
  · rw [hes]
    exact pairwise_error_lines [] _

end ScriptLexer
