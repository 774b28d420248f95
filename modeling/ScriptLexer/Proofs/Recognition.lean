import ScriptLexer.Proofs.NumberLiterals

/-! # Scanning recognizes the grammar

A text has exactly one cut by the grammar, and tokens and errors are read off it: each lexeme by
itself, on the line that the text before it gives. A word is a keyword exactly if it is spelled as
one, a number is the value nearest to what its digits say, and every other lexeme is what its
characters are. Nothing else can be read off a cut, and the stepwise lexer, which has a cursor and no
pieces, comes to the same tokens and errors. -/

namespace ScriptLexer

open Binary64 (IsRounding)

/-! ## What a piece is read as -/

/-- The token that a lexeme on `line` is read as. -/
inductive Piece.IsReadAs (line : Nat) : Piece → Token → Prop
  | symbol (s : Symbol) : IsReadAs line (.symbol s) ⟨.symbol s, s.spelling, none, line⟩
  | string (body : Text) :
    IsReadAs line (.string body) ⟨.string, '\x22' :: body ++ ['\x22'], some (.text body), line⟩
  | number {whole : Text} {fraction : Option Text} {v : Binary64} :
    IsRounding (decimalValue (Piece.number whole fraction).text) v →
    IsReadAs line (.number whole fraction)
      ⟨.number, (Piece.number whole fraction).text, some (.number v), line⟩
  | keyword {w : Text} {k : Keyword} : w = k.spelling →
    IsReadAs line (.word w) ⟨.keyword k, w, none, line⟩
  | identifier {w : Text} : (∀ k : Keyword, w ≠ k.spelling) →
    IsReadAs line (.word w) ⟨.identifier, w, none, line⟩

/-- The error that a faulty piece is reported as, which ends on `line`. -/
inductive Piece.IsReportedAs (line : Nat) : Piece → LexError → Prop
  | stray (c : Char) : IsReportedAs line (.stray c) (LexError.unexpectedCharacter c line)
  | openString (body : Text) :
    IsReportedAs line (.openString body) (LexError.unterminatedString line)
  | openComment (body : Text) :
    IsReportedAs line (.openComment body) (LexError.unterminatedComment line)

/-- Tokens and errors that are read off pieces: one token for each lexeme, on the line where it
starts, then one for the end of the text; one error for each faulty piece, on the line where it
ends. -/
structure Scan.IsReadOff (s : Scan) (ps : List Piece) : Prop where
  tokens : ∃ ts,
    s.tokens = ts ++ [Token.endOfText (1 + Text.lineFeeds (ps.flatMap Piece.text) : Nat)] ∧
    List.Forall₂ (fun t a => a.piece.IsReadAs a.line t) ts
      ((placed [] ps).filter fun a => a.piece.isLexeme)
  errors : List.Forall₂ (fun e a => a.piece.IsReportedAs a.endLine e) s.errors
    ((placed [] ps).filter fun a => a.piece.isFaulty)

namespace Piece

variable {p : Piece} {line : Nat}

theorem isReadAs_of_token? {t : Token} (hw : p.WellFormed) (h : p.token? line = some t) :
    p.IsReadAs line t := by
  cases p with
  | symbol s =>
    cases h
    exact .symbol s
  | string body =>
    cases h
    exact .string body
  | number whole fraction =>
    cases h
    exact .number (isRounding_numberValue hw)
  | word w =>
    cases h
    by_cases hk : ∃ k : Keyword, w = k.spelling
    · obtain ⟨k, hk⟩ := hk
      rw [TokenKind.ofWord_eq_keyword_iff.2 hk]
      exact .keyword hk
    · have hn := not_exists.1 hk
      rw [TokenKind.ofWord_eq_identifier_iff.2 hn]
      exact .identifier hn
  | _ => cases h

theorem isReportedAs_of_error? {e : LexError} (h : p.error? line = some e) :
    p.IsReportedAs line e := by
  cases p with
  | stray c =>
    cases h
    exact .stray c
  | openString body =>
    cases h
    exact .openString body
  | openComment body =>
    cases h
    exact .openComment body
  | _ => cases h

/-- A lexeme is read as one token only. -/
theorem IsReadAs.eq {t u : Token} (ht : p.IsReadAs line t) (hu : p.IsReadAs line u) : t = u := by
  cases ht with
  | symbol | string =>
    cases hu
    rfl
  | number hv =>
    cases hu with
    | number hv' => rw [hv.eq hv']
  | keyword hk =>
    cases hu with
    | keyword hk' =>
      have hs := congrArg Keyword.ofSpelling? (hk.symm.trans hk')
      rw [Keyword.ofSpelling?_spelling, Keyword.ofSpelling?_spelling] at hs
      rw [Option.some.inj hs]
    | identifier hn => exact absurd hk (hn _)
  | identifier hn =>
    cases hu with
    | keyword hk => exact absurd hk (hn _)
    | identifier => rfl

theorem IsReportedAs.eq {e f : LexError} (he : p.IsReportedAs line e)
    (hf : p.IsReportedAs line f) : e = f := by
  cases he <;> cases hf <;> rfl

end Piece

/-! ## Reading off a cut -/

theorem isReadOff_scan {source : Text} {ps : List Piece} (h : IsCut source ps) :
    (scan source).IsReadOff ps := by
  refine ⟨⟨readTokens [] ps, ?_, ?_⟩, ?_⟩
  · rw [h.flatMap_text, tokens_scan h]
  · refine (forall₂_readTokens [] ps).imp ?_
    rintro t a ⟨ha, ht⟩
    obtain ⟨_, hf, -⟩ := fits_of_mem_placed h ha
    exact Piece.isReadAs_of_token? hf.wellFormed ht
  · rw [errors_scan h]
    exact (forall₂_readErrors [] ps).imp fun e a he => Piece.isReportedAs_of_error? he.2

/-- What is read off pieces is determined by them. -/
theorem Scan.IsReadOff.eq {s s' : Scan} {ps : List Piece} (h : s.IsReadOff ps)
    (h' : s'.IsReadOff ps) : s = s' := by
  obtain ⟨⟨ts, hts, htokens⟩, herrors⟩ := h
  obtain ⟨⟨ts', hts', htokens'⟩, herrors'⟩ := h'
  have huniqueTokens : Relator.LeftUnique fun t (a : Place) => a.piece.IsReadAs a.line t :=
    fun _ _ _ ht hu => ht.eq hu
  have huniqueErrors : Relator.LeftUnique fun e (a : Place) => a.piece.IsReportedAs a.endLine e :=
    fun _ _ _ he hf => he.eq hf
  have ht : ts = ts' := List.left_unique_forall₂' huniqueTokens htokens htokens'
  have he : s.errors = s'.errors := List.left_unique_forall₂' huniqueErrors herrors herrors'
  obtain ⟨tokens, errors⟩ := s
  obtain ⟨tokens', errors'⟩ := s'
  subst hts hts' ht he
  rfl

/-- Every text has exactly one cut by the grammar, and scanning gives what is read off it, which is
one thing only. So does the lexer that goes through the text step by step. -/
theorem scan_reads_off_the_cut (source : Text) :
    ∃ ps, IsCut source ps ∧ (∀ qs, IsCut source qs → qs = ps) ∧
      (scan source).IsReadOff ps ∧ (∀ s : Scan, s.IsReadOff ps → s = scan source) ∧
      ∃ ended, Lexer.tokenize { source } = (.ok (scan source).tokens, ended) ∧
        ended.errors = (scan source).errors := by
  have hc := isCut_cut source
  have hr := isReadOff_scan hc
  obtain ⟨ended, ht, -, -, he, -⟩ := Lexer.tokenize_eq { source }
  exact ⟨cut source, hc, fun qs hq => hq.eq_cut, hr, fun s hs => hs.eq hr, ended, ht, he⟩

end ScriptLexer
