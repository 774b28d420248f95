import ScriptLexer.Proofs.Rewriting

/-! # Characters outside the language

No character that starts nothing is like a particular one: a text whose characters of this kind are
exchanged for others of this kind, all of them, in strings, in comments and outside, falls into the
same pieces. Its tokens and errors only show the other characters. In particular the one that a
reader gives where there is nothing to read may be in a text like any other. -/

namespace ScriptLexer

/-- The characters of the language stay, and the others become any that are not of the language. -/
structure KeepsLanguage (f : Char → Char) : Prop where
  eq_self : ∀ c, ¬ IsStray c → f c = c
  isStray : ∀ c, IsStray c → IsStray (f c)

/-! ## The other text, tokens and errors -/

def Literal.renamed (f : Char → Char) : Literal → Literal
  | number v => .number v
  | text t => .text (t.map f)

def Token.renamed (f : Char → Char) (t : Token) : Token :=
  { t with lexeme := t.lexeme.map f, literal := t.literal.map (Literal.renamed f) }

/-- The error about the other character. Its help is about that character too. -/
def LexError.renamed (f : Char → Char) (e : LexError) : LexError :=
  match e.cause with
  | .unexpectedCharacter found _ =>
    { e with cause :=
        .unexpectedCharacter (found.map f) (unexpectedHelp (found.map f)).toOption }
  | _ => e

def Piece.renamed (f : Char → Char) : Piece → Piece
  | stray c => .stray (f c)
  | p => p.mapBody (List.map f)

def Effect.ofRenaming (f : Char → Char) : Effect where
  onToken := Token.renamed f
  onError e := some (e.renamed f)

/-! ## Pieces -/

section

variable {f : Char → Char} {p : Piece} {t : Text}

/-- A character of the language comes from no other. -/
theorem KeepsLanguage.eq_of_eq (hf : KeepsLanguage f) {a c : Char} (ha : ¬ IsStray a)
    (h : f c = a) : c = a := by
  by_cases hc : IsStray c
  · exact absurd (h ▸ hf.isStray c hc) ha
  · rw [← h, hf.eq_self c hc]

theorem KeepsLanguage.mem_map (hf : KeepsLanguage f) {a : Char} (ha : ¬ IsStray a)
    (h : a ∈ t.map f) : a ∈ t := by
  obtain ⟨c, hc, hca⟩ := List.mem_map.1 h
  rwa [hf.eq_of_eq ha hca] at hc

theorem KeepsLanguage.map_eq_self (hf : KeepsLanguage f) (h : ∀ c ∈ t, ¬ IsStray c) :
    t.map f = t := by
  have hm := List.map_congr_left fun c hc => hf.eq_self c (h c hc)
  rwa [List.map_id'] at hm

theorem KeepsLanguage.keepsEnds (hf : KeepsLanguage f) : KeepsEnds (List.map f) where
  lineFeeds_eq body := by
    have hn : ∀ c, f c = '\n' ↔ c = '\n' := fun c =>
      ⟨hf.eq_of_eq (by decide), fun h => by rw [h, hf.eq_self _ (by decide)]⟩
    simp only [Text.lineFeeds, List.count_eq_countP, List.countP_map, Function.comp_def,
      beq_eq_decide, hn]
  quote_mem body := hf.mem_map (by decide)
  commentEnd_infix body h := by
    obtain ⟨l, hl, he⟩ := List.infix_map_iff.1 h
    have hs : ∀ c ∈ l.map f, ¬ IsStray c := by
      rw [← he]
      exact Text.forall_mem_of_all (by decide)
    -- So there is nothing in `l` that the map changes.
    have hl' : l.map f = l :=
      hf.map_eq_self fun c hc hsc => hs _ (List.mem_map_of_mem hc) (hf.isStray c hsc)
    rwa [he, hl']

theorem Piece.WellFormed.text_renamed (h : p.WellFormed) (hf : KeepsLanguage f) :
    (p.renamed f).text = p.text.map f := by
  have hm : ∀ c ∈ marks, f c = c := fun c hc => hf.eq_self c (not_isStray_of_mem_marks hc)
  have hs := hm '/' (by decide)
  have ht := hm '*' (by decide)
  have hq := hm '\x22' (by decide)
  cases p with
  | symbol s =>
    exact (hf.map_eq_self fun c hc => not_isStray_of_mem_marks (s.mem_marks c hc)).symm
  | blank c =>
    have hb : isBlank c = true := h
    refine (hf.map_eq_self fun d hd => ?_).symm
    rw [List.mem_singleton.1 hd]
    exact not_isStray_of_isBlank hb
  | number whole fraction =>
    refine (hf.map_eq_self fun c hc => ?_).symm
    rcases h.mem_number c hc with hw | rfl
    · exact not_isStray_of_isWordCharacter hw
    · decide
  | word w =>
    have hw : IsWord w := h
    exact (hf.map_eq_self fun c hc => not_isStray_of_isWordCharacter (hw.isWordCharacter c hc)).symm
  | stray c => rfl
  | lineComment | blockComment | openComment | string | openString =>
    simp [Piece.renamed, Piece.mapBody, Piece.text, hs, ht, hq]

theorem Piece.WellFormed.token?_renamed (h : p.WellFormed) (hf : KeepsLanguage f) (line : Nat) :
    (p.renamed f).token? line = (p.token? line).map (Token.renamed f) := by
  have ht := h.text_renamed hf
  cases p with
  | symbol s | string body | number whole fraction | word w =>
    simp only [Piece.token?, Option.map_some, Token.renamed, ← ht]
    rfl
  | _ => rfl

theorem exists_rewrites_renamed (hf : KeepsLanguage f) {old : Text} (h : p.Fits old) :
    ∃ qs, Rewrites (.ofRenaming f) old [p] (p.text.map f) qs := by
  have ht := h.wellFormed.token?_renamed hf
  rw [← h.wellFormed.text_renamed hf]
  cases p with
  | stray c =>
    have hc : IsStray c := h.wellFormed
    have hfc : IsStray (f c) := hf.isStray c hc
    refine ⟨_, rewrites_piece hfc (fun _ _ => trivial) ?_ ?_ ht fun _ => rfl⟩
    · intro new _
      exact Text.standsFor_of_plain ⟨hfc.1, hfc.2.2⟩ fun he => absurd he hc.ne_lineFeed
    · have hl := Text.lineFeeds_singleton hfc.ne_lineFeed
      exact hl.trans (Text.lineFeeds_singleton hc.ne_lineFeed).symm
  | _ => exact ⟨_, rewrites_mapBody hf.keepsEnds h ht fun _ => rfl⟩

end

/-- Writing a text with other characters. -/
def Rewriting.renaming {f : Char → Char} (hf : KeepsLanguage f) : Rewriting where
  effect := .ofRenaming f
  write _ p := p.text.map f
  exists_rewrites := exists_rewrites_renamed hf

/-- The characters outside the language are interchangeable. If a map keeps the language, a text
with the map applied to it has the tokens of the text, of the same kinds and on the same lines, with
the map applied to their lexemes and to the values of strings, and the values of numbers unchanged;
and it has the errors of the text, with the same faults on the same lines, about the mapped
characters. The stepwise lexer gives the same. -/
theorem scan_map_of_keepsLanguage {f : Char → Char} (hf : KeepsLanguage f) (source : Text) :
    scan (source.map f) =
        ⟨(scan source).tokens.map (Token.renamed f), (scan source).errors.map (LexError.renamed f)⟩ ∧
      ∃ ended, Lexer.tokenize { source := source.map f } =
          (.ok ((scan source).tokens.map (Token.renamed f)), ended) ∧
        ended.errors = (scan source).errors.map (LexError.renamed f) := by
  have hs : scan (source.map f) =
      ⟨(scan source).tokens.map (Token.renamed f),
        (scan source).errors.map (LexError.renamed f)⟩ := by
    have hm : source.map f = (Rewriting.renaming hf).text (cut source) := by
      rw [Rewriting.text_eq_flatMap _ fun _ _ => rfl, ← List.map_flatMap, flatMap_text_cut]
    rw [hm, Rewriting.scan_text _ (isCut_cut source)]
    simp [Scan.under, Rewriting.renaming, Effect.ofRenaming]
  exact ⟨hs, Lexer.tokenize_of_scan_eq hs⟩

/-- With every character outside the language turned into NUL: in a string, in a comment, behind a
digit and alone. -/
theorem scan_map_to_nul :
    let f := fun c => if IsStray c then '\x00' else c
    let text := ['\x22', 'é', '\x0b', '\x22', '/', '*', '٣', '*', '/', '1', '٣', '\n', '@']
    KeepsLanguage f ∧
      (scan (text.map f)).tokens = (scan text).tokens.map (Token.renamed f) ∧
      (scan (text.map f)).errors =
        [LexError.unexpectedCharacter '\x00' 1, LexError.unexpectedCharacter '\x00' 2] ∧
      ∃ ended, Lexer.tokenize { source := text.map f } =
        (.ok ((scan text).tokens.map (Token.renamed f)), ended) := by
  intro f text
  have hf : KeepsLanguage f := by
    constructor
    · intro c hc
      exact if_neg hc
    · intro c hc
      have he : f c = '\x00' := if_pos hc
      rw [he]
      decide
  obtain ⟨hs, ended, ht, -⟩ := scan_map_of_keepsLanguage hf text
  have he : (scan text).errors.map (LexError.renamed f) =
      [LexError.unexpectedCharacter '\x00' 1, LexError.unexpectedCharacter '\x00' 2] := by
    decide +kernel
  rw [hs]
  exact ⟨hf, rfl, he, ended, ht⟩

end ScriptLexer
