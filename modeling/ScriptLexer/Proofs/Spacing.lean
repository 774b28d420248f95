import ScriptLexer.Proofs.Lexemes

/-! # Lexemes with space between them

Lexemes written one after the other, with a blank and any comments between each two, are read back
one by one. In particular the lexemes of a scan, written with single spaces, scan to the same
tokens. -/

namespace ScriptLexer

/-- Blanks, closed block comments, and line comments with their line feeds, in any order. -/
inductive IsFiller : Text → Prop
  | nil : IsFiller []
  | blank {c : Char} {t : Text} : isBlank c = true → IsFiller t → IsFiller (c :: t)
  | blockComment {body t : Text} :
      ClosesOnce body → IsFiller t → IsFiller ('/' :: '*' :: body ++ ['*', '/'] ++ t)
  | lineComment {body t : Text} :
      '\n' ∉ body → IsFiller t → IsFiller ('/' :: '/' :: body ++ '\n' :: t)

/-- A blank, and then any filler. -/
def IsSeparator (s : Text) : Prop :=
  ∃ c t, s = c :: t ∧ isBlank c = true ∧ IsFiller t

/-- A text that consists of these lexemes in their order, with a separator between each two. -/
inductive Spaced : List Text → Text → Prop
  | nil : Spaced [] []
  | single {w : Text} : IsLexeme w → Spaced [w] w
  | cons {w v s t : Text} {ws : List Text} :
      IsLexeme w → IsSeparator s → Spaced (v :: ws) t → Spaced (w :: v :: ws) (w ++ s ++ t)

/-! ## Cuts of spaced texts -/

/-- Filler in front of a text adds pieces that give nothing. -/
theorem IsFiller.exists_cut {s t : Text} {ps : List Piece} (h : IsFiller s) (ht : IsCut t ps) :
    ∃ fs, IsCut (s ++ t) (fs ++ ps) ∧ GivesLexemes [] fs := by
  induction h with
  | nil => exact ⟨[], ht, givesLexemes_nil⟩
  | @blank c s hc _ ih =>
    obtain ⟨fs, hcut, hg⟩ := ih
    have hf : (Piece.blank c).Fits (s ++ t) := ⟨hc, trivial⟩
    have hb : GivesLexemes [] [.blank c] := ⟨rfl, by simp [Piece.isFaulty]⟩
    exact ⟨.blank c :: fs, .cons hf hcut, hb.append hg⟩
  | @blockComment body s hb _ ih =>
    obtain ⟨fs, hcut, hg⟩ := ih
    have hf : (Piece.blockComment body).Fits (s ++ t) := ⟨hb, trivial⟩
    have hc : GivesLexemes [] [.blockComment body] := ⟨rfl, by simp [Piece.isFaulty]⟩
    refine ⟨.blockComment body :: fs, ?_, hc.append hg⟩
    rw [List.append_assoc]
    exact .cons hf hcut
  | @lineComment body s hb _ ih =>
    obtain ⟨fs, hcut, hg⟩ := ih
    have hn : (Piece.blank '\n').Fits (s ++ t) := ⟨rfl, trivial⟩
    have hf : (Piece.lineComment body).Fits ('\n' :: (s ++ t)) :=
      ⟨hb, by simp [Piece.EndsBefore]⟩
    have hc : GivesLexemes [] [.lineComment body, .blank '\n'] :=
      ⟨rfl, by simp [Piece.isFaulty]⟩
    -- The line feed is no part of the comment; it is a blank behind it.
    refine ⟨.lineComment body :: .blank '\n' :: fs, ?_, hc.append hg⟩
    rw [List.append_assoc, List.cons_append]
    exact .cons hf (.cons hn hcut)

/-- A spaced text in front of a blank or the end is cut into its lexemes and filler. -/
theorem Spaced.exists_cut {ws : List Text} {t tail : Text} {qs : List Piece} (h : Spaced ws t)
    (hq : IsCut tail qs) (hb : ∀ c ∈ tail.head?, isBlank c = true) :
    ∃ ps, IsCut (t ++ tail) (ps ++ qs) ∧ GivesLexemes ws ps := by
  induction h with
  | nil => exact ⟨[], hq, givesLexemes_nil⟩
  | single hw =>
    obtain ⟨p, hp, hl, rfl⟩ := hw.exists_piece
    exact ⟨[p], .cons ⟨hp, p.endsBefore_of_blank hl hb⟩ hq, givesLexemes_singleton hl⟩
  | @cons w v s t ws hw hs _ ih =>
    obtain ⟨p, hp, hl, rfl⟩ := hw.exists_piece
    obtain ⟨c, s, rfl, hc, hfill⟩ := hs
    obtain ⟨ps, hcut, hg⟩ := ih
    obtain ⟨fs, hcut, hf⟩ := (IsFiller.blank hc hfill).exists_cut hcut
    have hfit : p.Fits (c :: s ++ (t ++ tail)) := ⟨hp, p.endsBefore_of_blank hl (by simp [hc])⟩
    refine ⟨p :: fs ++ ps, ?_, ((givesLexemes_singleton hl).append hf).append hg⟩
    simpa using IsCut.cons hfit hcut

/-! ## Printing tokens -/

/-- The lexemes of tokens, with single spaces between them. -/
def printed (ts : List Token) : Text :=
  [' '].intercalate (ts.map Token.lexeme)

theorem isSeparator_space : IsSeparator [' '] :=
  ⟨' ', [], rfl, rfl, .nil⟩

theorem spaced_intercalate {ws : List Text} (h : ∀ w ∈ ws, IsLexeme w) :
    Spaced ws ([' '].intercalate ws) := by
  induction ws with
  | nil => exact .nil
  | cons w ws ih =>
    have hw := h w List.mem_cons_self
    cases ws with
    | nil =>
      rw [List.intercalate_singleton]
      exact .single hw
    | cons v ws =>
      rw [List.intercalate_cons_cons]
      exact .cons hw isSeparator_space (ih fun u hu => h u (List.mem_cons_of_mem w hu))

/-- An empty lexeme at the end only leaves a space, if there is anything before it. -/
theorem intercalate_append_nil (ws : List Text) :
    [' '].intercalate (ws ++ [[]]) = [' '].intercalate ws ++ if ws = [] then [] else [' '] := by
  induction ws with
  | nil => rfl
  | cons w ws ih =>
    cases ws with
    | nil => simp [List.intercalate_cons_cons]
    | cons v ws =>
      rw [List.cons_append, List.cons_append, List.intercalate_cons_cons, ← List.cons_append, ih,
        List.intercalate_cons_cons]
      simp

/-- A text of the lexemes of a scan, followed by a space or nothing, scans to the same tokens. -/
theorem content_scan_printed (source : Text) {tail : Text} {qs : List Piece} (hq : IsCut tail qs)
    (hb : ∀ c ∈ tail.head?, isBlank c = true) (hg : GivesLexemes [] qs) {ws : List Text}
    (hws : ws = ((cut source).filter Piece.isLexeme).map Piece.text) :
    (scan ([' '].intercalate ws ++ tail)).errors = [] ∧
      (scan ([' '].intercalate ws ++ tail)).tokens.map Token.content =
        (scan source).tokens.map Token.content := by
  have hc := isCut_cut source
  have hr := readAlone_readTokens hc []
  rw [← hws] at hr
  obtain ⟨ps, hcut, hgp⟩ := (spaced_intercalate (hws ▸ isLexeme_of_mem hc)).exists_cut hq hb
  obtain ⟨he, ts, ht, ha⟩ := (hgp.append hg).scan hcut
  rw [List.append_nil] at ha
  refine ⟨he, ?_⟩
  rw [ht, tokens_scan hc, List.map_append, List.map_append, content_eq_of_readAlone ha hr]
  rfl

/-- Lexemes with separators between them are read back. Scanning gives no error and one token for
each lexeme, which is the token that the lexeme alone gives, and then the end of the text. So the
lexemes of any scan, printed with single spaces, with or without the empty one of the last token,
scan to tokens that say the same. -/
theorem scan_of_spaced :
    (∀ ws t, Spaced ws t → (scan t).errors = [] ∧ ∃ ts,
      (scan t).tokens = ts ++ [Token.endOfText (1 + Text.lineFeeds t : Nat)] ∧
        List.Forall₂ Token.ReadAlone ws ts) ∧
    ∀ source, ∀ ts ∈ [(scan source).tokens, (scan source).tokens.dropLast],
      (scan (printed ts)).errors = [] ∧
        (scan (printed ts)).tokens.map Token.content =
          (scan source).tokens.map Token.content := by
  constructor
  · intro ws t h
    obtain ⟨ps, hcut, hg⟩ := h.exists_cut .nil (by simp)
    rw [List.append_nil, List.append_nil] at hcut
    exact hg.scan hcut
  · intro source ts hts
    have hc := isCut_cut source
    have ht := tokens_scan hc
    have hl := map_lexeme_of_readAlone (readAlone_readTokens hc [])
    have hend := content_scan_printed source .nil (by simp) givesLexemes_nil rfl
    rw [List.append_nil] at hend
    rw [ht, List.dropLast_concat] at hts
    rcases hts with _ | ⟨_, hts⟩
    -- With the last token, whose lexeme is empty, a space is at the end of the text.
    · have he : [Token.endOfText (1 + Text.lineFeeds source : Nat)].map Token.lexeme = [[]] := rfl
      rw [printed, List.map_append, hl, he, intercalate_append_nil]
      split
      · rwa [List.append_nil]
      · have hf : (Piece.blank ' ').Fits [] := ⟨rfl, trivial⟩
        have hg : GivesLexemes [] [.blank ' '] := ⟨rfl, by simp [Piece.isFaulty]⟩
        exact content_scan_printed source (.cons hf .nil) (by simp [Piece.text, isBlank]) hg rfl
    · obtain rfl := List.mem_singleton.1 hts
      rwa [printed, hl]

/-- A number, a slash and a string over two lines, with comments of both kinds between them. -/
theorem scan_of_spaced_comments :
    let text := ['1', '.', '5'] ++ [' ', '/', '*', '*', '/'] ++
      (['/'] ++ ['\n', '/', '/', '\x22', '\n'] ++ ['\x22', '\n', '\x22'])
    let lexemes := [['1', '.', '5'], ['/'], ['\x22', '\n', '\x22']]
    Spaced lexemes text ∧ (scan text).errors = [] ∧ ∃ ts,
      (scan text).tokens = ts ++ [Token.endOfText 4] ∧ List.Forall₂ Token.ReadAlone lexemes ts := by
  have hd : ∀ c, isDigit c = true → IsDigits [c] := fun c hc => ⟨by simp, by simpa using hc⟩
  have hn : IsNumber ['1', '.', '5'] := .inr ⟨['1'], ['5'], hd '1' rfl, hd '5' rfl, rfl⟩
  have hb : '\n' ∉ ['\x22'] := by decide
  have hq : '\x22' ∉ ['\n'] := by decide
  have h₁ : IsSeparator [' ', '/', '*', '*', '/'] :=
    ⟨' ', _, rfl, rfl, .blockComment closesOnce_nil .nil⟩
  have h₂ : IsSeparator ['\n', '/', '/', '\x22', '\n'] :=
    ⟨'\n', _, rfl, rfl, .lineComment hb .nil⟩
  have hs := Spaced.cons (.number hn) h₁ (.cons (.symbol .slash) h₂ (.single (.string hq)))
  exact ⟨hs, scan_of_spaced.1 _ _ hs⟩

end ScriptLexer
