import ScriptLexer.Proofs.Placement

/-! # Lexemes

The texts that a token can have as its lexeme, said without pieces: the nineteen symbols, words,
numbers, and quoted texts. They are the texts of the pieces that have tokens, and each of them,
alone or in front of a blank, is read as that piece. So every token is what scanning its lexeme
alone gives, but for its line. -/

namespace ScriptLexer

/-- Digits, or digits with a point among them. -/
def IsNumber (w : Text) : Prop :=
  IsDigits w ∨ ∃ whole fraction, IsDigits whole ∧ IsDigits fraction ∧ w = whole ++ '.' :: fraction

/-- A well-formed lexeme. -/
inductive IsLexeme : Text → Prop
  | symbol (s : Symbol) : IsLexeme s.spelling
  | word {w : Text} : IsWord w → IsLexeme w
  | number {w : Text} : IsNumber w → IsLexeme w
  | string {body : Text} : '\x22' ∉ body → IsLexeme ('\x22' :: body ++ ['\x22'])

/-- What a token says besides its line. -/
def Token.content (t : Token) : TokenKind × Text × Option Literal :=
  (t.kind, t.lexeme, t.literal)

/-- Scanning `w` alone gives one token and no error, and `t` says the same as that token. -/
def Token.ReadAlone (w : Text) (t : Token) : Prop :=
  ∃ alone : Token, scan w = ⟨[alone, Token.endOfText (1 + Text.lineFeeds w : Nat)], []⟩ ∧
    alone.lexeme = w ∧ t.content = alone.content

/-! ## Pieces of lexemes -/

/-- The numbers are the texts of number pieces. -/
theorem isNumber_iff {w : Text} : IsNumber w ↔ ∃ whole fraction,
    (Piece.number whole fraction).WellFormed ∧ (Piece.number whole fraction).text = w := by
  constructor
  · rintro (hd | ⟨whole, fraction, hw, hf, rfl⟩)
    · exact ⟨w, none, ⟨hd, by simp⟩, rfl⟩
    · exact ⟨whole, some fraction, ⟨hw, by simpa using hf⟩, rfl⟩
  · rintro ⟨whole, fraction, hp, rfl⟩
    cases fraction with
    | none => exact .inl hp.1
    | some f => exact .inr ⟨whole, f, hp.1, hp.2 f rfl, rfl⟩

theorem IsLexeme.exists_piece {w : Text} (h : IsLexeme w) :
    ∃ p : Piece, p.WellFormed ∧ p.isLexeme = true ∧ p.text = w := by
  cases h with
  | symbol s => exact ⟨.symbol s, trivial, rfl, rfl⟩
  | word hw => exact ⟨.word w, hw, rfl, rfl⟩
  | string hb => exact ⟨.string _, hb, rfl, rfl⟩
  | number hn =>
    obtain ⟨whole, fraction, hp, ht⟩ := isNumber_iff.1 hn
    exact ⟨.number whole fraction, hp, rfl, ht⟩

theorem Piece.isLexeme_text {p : Piece} (hw : p.WellFormed) (hl : p.isLexeme = true) :
    IsLexeme p.text := by
  cases p with
  | symbol s => exact .symbol s
  | word w => exact .word hw
  | string body => exact .string hw
  | number whole fraction => exact .number (isNumber_iff.2 ⟨whole, fraction, hw, rfl⟩)
  | _ => cases hl

/-- A lexeme ends where a blank or the end of the text follows. -/
theorem Piece.endsBefore_of_blank {p : Piece} {after : Text} (hl : p.isLexeme = true)
    (hb : ∀ c ∈ after.head?, isBlank c = true) : p.EndsBefore after := by
  have hne : ∀ c, isBlank c = false → after.head? ≠ some c := by
    intro c hc hh
    simp [hb c hh] at hc
  have hd : Text.StopsRun isDigit after := fun c hc => (plain_of_isBlank (hb c hc)).2.1
  cases p with
  | symbol s =>
    cases s
    case bang | equal | greater | less => exact hne '=' rfl
    case slash => exact ⟨hne '/' rfl, hne '*' rfl⟩
    all_goals trivial
  | string body => trivial
  | word w =>
    intro c hc
    obtain ⟨-, hd, hl⟩ := plain_of_isBlank (hb c hc)
    simp [isWordCharacter, hd, hl]
  | number whole fraction =>
    cases fraction with
    | none =>
      refine ⟨hd, ?_⟩
      rintro ⟨d, rest, rfl, -⟩
      exact hne '.' rfl rfl
    | some f => exact hd
  | _ => cases hl

theorem Piece.isCut_text {p : Piece} (hw : p.WellFormed) (hl : p.isLexeme = true) :
    IsCut p.text [p] := by
  have hf : p.Fits [] := ⟨hw, p.endsBefore_of_blank hl (by simp)⟩
  simpa using IsCut.cons hf .nil

/-- The text of a lexeme determines its piece. -/
theorem Piece.eq_of_text_eq {p q : Piece} (hp : p.WellFormed) (hpl : p.isLexeme = true)
    (hq : q.WellFormed) (hql : q.isLexeme = true) (h : p.text = q.text) : p = q := by
  have hcp := (p.isCut_text hp hpl).eq_cut
  have hcq := (q.isCut_text hq hql).eq_cut
  rw [h, ← hcq] at hcp
  exact (List.cons.inj hcp).1

/-! ## Tokens of lexemes -/

theorem Piece.content_token? (p : Piece) (m n : Nat) :
    (p.token? m).map Token.content = (p.token? n).map Token.content := by
  cases p <;> rfl

theorem readAlone_of_token? {p : Piece} {line : Nat} {t : Token} (hw : p.WellFormed)
    (ht : p.token? line = some t) : Token.ReadAlone p.text t := by
  have hl : p.isLexeme = true := by rw [← p.isSome_token? line, ht]; rfl
  have hc := p.isCut_text hw hl
  have hm := p.content_token? line 1
  rw [ht] at hm
  obtain ⟨alone, ha, he⟩ := Option.map_eq_some_iff.1 hm.symm
  refine ⟨alone, ?_, (Piece.lexeme_of_token? ha).1, he.symm⟩
  rw [scan, ← hc.eq_cut]
  simp [Scan.ofPieces, ha, Piece.error?_of_isLexeme hl]

/-- Every token of a text is what its lexeme alone is read as. -/
theorem readAlone_readTokens {t : Text} {ps : List Piece} (h : IsCut t ps) (before : Text) :
    List.Forall₂ Token.ReadAlone ((ps.filter Piece.isLexeme).map Piece.text)
      (readTokens before ps) := by
  induction h generalizing before with
  | nil => exact .nil
  | @cons p after ps hf _ ih =>
    have hs := p.isSome_token? (1 + Text.lineFeeds before)
    rw [readTokens_cons]
    cases ht : p.token? (1 + Text.lineFeeds before) with
    | none =>
      rw [ht] at hs
      rw [List.filter_cons_of_neg (by simp [← hs])]
      exact ih _
    | some u =>
      rw [ht] at hs
      rw [List.filter_cons_of_pos hs.symm]
      exact .cons (readAlone_of_token? hf.wellFormed ht) (ih _)

theorem Token.ReadAlone.lexeme_eq {w : Text} {t : Token} (h : Token.ReadAlone w t) :
    t.lexeme = w := by
  obtain ⟨alone, -, hl, hc⟩ := h
  rw [← hl]
  exact congrArg (fun c => c.2.1) hc

/-- What tokens say is determined by their lexemes. -/
theorem content_eq_of_readAlone {ws : List Text} {ts us : List Token}
    (ht : List.Forall₂ Token.ReadAlone ws ts) (hu : List.Forall₂ Token.ReadAlone ws us) :
    ts.map Token.content = us.map Token.content := by
  induction ht generalizing us with
  | nil =>
    cases hu
    rfl
  | cons h _ ih =>
    cases hu with
    | cons h' hu =>
      obtain ⟨a, ha, -, hca⟩ := h
      obtain ⟨b, hb, -, hcb⟩ := h'
      obtain rfl : a = b := by
        rw [ha] at hb
        cases hb
        rfl
      rw [List.map_cons, List.map_cons, hca, hcb, ih hu]

theorem map_lexeme_of_readAlone {ws : List Text} {ts : List Token}
    (h : List.Forall₂ Token.ReadAlone ws ts) : ts.map Token.lexeme = ws := by
  induction h with
  | nil => rfl
  | cons h _ ih => rw [List.map_cons, h.lexeme_eq, ih]

theorem isLexeme_of_mem {t : Text} {ps : List Piece} (h : IsCut t ps) :
    ∀ w ∈ (ps.filter Piece.isLexeme).map Piece.text, IsLexeme w := by
  intro w hw
  obtain ⟨p, hp, rfl⟩ := List.mem_map.1 hw
  obtain ⟨hp, hl⟩ := List.mem_filter.1 hp
  exact p.isLexeme_text (h.wellFormed p hp) hl

/-! ## Cuts into lexemes -/

/-- Pieces that give these lexemes and no error. -/
def GivesLexemes (ws : List Text) (ps : List Piece) : Prop :=
  (ps.filter Piece.isLexeme).map Piece.text = ws ∧ ∀ p ∈ ps, p.isFaulty = false

theorem GivesLexemes.append {ws vs : List Text} {ps qs : List Piece} (h : GivesLexemes ws ps)
    (h' : GivesLexemes vs qs) : GivesLexemes (ws ++ vs) (ps ++ qs) := by
  refine ⟨?_, fun p hp => ?_⟩
  · rw [List.filter_append, List.map_append, h.1, h'.1]
  · rcases List.mem_append.1 hp with hp | hp
    · exact h.2 p hp
    · exact h'.2 p hp

theorem givesLexemes_nil : GivesLexemes [] [] :=
  ⟨rfl, by simp⟩

theorem givesLexemes_singleton {p : Piece} (h : p.isLexeme = true) : GivesLexemes [p.text] [p] := by
  refine ⟨by simp [h], ?_⟩
  cases p with
  | symbol | string | number | word => simp [Piece.isFaulty]
  | _ => cases h

/-- A text whose cut gives these lexemes scans to them. -/
theorem GivesLexemes.scan {ws : List Text} {t : Text} {ps : List Piece} (h : GivesLexemes ws ps)
    (hc : IsCut t ps) :
    (ScriptLexer.scan t).errors = [] ∧ ∃ ts,
      (ScriptLexer.scan t).tokens = ts ++ [Token.endOfText (1 + Text.lineFeeds t : Nat)] ∧
      List.Forall₂ Token.ReadAlone ws ts := by
  have hr := readAlone_readTokens hc []
  rw [h.1] at hr
  refine ⟨?_, _, tokens_scan hc, hr⟩
  rw [errors_scan hc, readErrors_eq_nil h.2]

end ScriptLexer
