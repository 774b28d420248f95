import ScriptLexer.Proofs.Rewriting

/-! # Carriage returns in front of line feeds

A carriage return with a line feed behind it is a blank, belongs to the body of a string or of a block
comment, or is the last character of a line comment. A text without them falls into the same pieces,
but for the blanks that they were and the bodies that they stood in. Whether a piece ends with such a
carriage return shows only in the text behind the piece, so the pieces are written anew in front of
that. -/

namespace ScriptLexer

namespace Text

/-- The text with a line feed for every carriage return and line feed. -/
def plainEnds : Text → Text
  | '\r' :: '\n' :: rest => '\n' :: plainEnds rest
  | c :: rest => c :: plainEnds rest
  | [] => []

/-- What is left of a text in front of another, where the last line feed may be. -/
def plainEndsBefore (after : Text) : Text → Text
  | [] => []
  | c :: t =>
    if c = '\r' ∧ (t ++ after).head? = some '\n' then plainEndsBefore after t
    else c :: plainEndsBefore after t

variable {after s t : Text} {c : Char}

theorem plainEnds_cons (c : Char) (t : Text) :
    plainEnds (c :: t) =
      if c = '\r' ∧ t.head? = some '\n' then plainEnds t else c :: plainEnds t := by
  split
  · next h =>
    obtain ⟨rfl, hh⟩ := h
    obtain ⟨rest, rfl⟩ := List.head?_eq_some_iff.1 hh
    rw [plainEnds, plainEnds.eq_2 '\n' rest]
    intro r hr
    cases hr
  · next h =>
    rw [plainEnds.eq_2]
    rintro rest rfl rfl
    exact h ⟨rfl, rfl⟩

/-- Of two carriage returns only the one next to the line feed goes. -/
example : plainEnds ['\r', '\r', '\n', '\r'] = ['\r', '\n', '\r'] := by
  decide

theorem plainEnds_append (t after : Text) :
    plainEnds (t ++ after) = plainEndsBefore after t ++ plainEnds after := by
  induction t with
  | nil => rfl
  | cons c t ih =>
    rw [List.cons_append, plainEnds_cons, plainEndsBefore, ih]
    split <;> rfl

theorem plainEnds_eq (t : Text) : plainEnds t = plainEndsBefore [] t := by
  simpa [plainEnds] using plainEnds_append t []

theorem plainEndsBefore_append (after s t : Text) :
    plainEndsBefore after (s ++ t) = plainEndsBefore (t ++ after) s ++ plainEndsBefore after t := by
  induction s with
  | nil => rfl
  | cons c s ih =>
    rw [List.cons_append, plainEndsBefore, plainEndsBefore, ih, List.append_assoc]
    split <;> rfl

/-- Only a line feed at its beginning makes a difference in the text behind. -/
theorem plainEndsBefore_eq (h : after.head? ≠ some '\n') (t : Text) :
    plainEndsBefore after t = plainEnds t := by
  induction t with
  | nil => rfl
  | cons c t ih =>
    have hh : (t ++ after).head? = some '\n' ↔ t.head? = some '\n' := by
      cases t with
      | nil => simpa using h
      | cons d t => rfl
    simp only [plainEndsBefore, plainEnds_cons, ih, hh]

theorem plainEndsBefore_of_not_mem (h : '\r' ∉ t) : plainEndsBefore after t = t := by
  induction t with
  | nil => rfl
  | cons c t ih =>
    obtain ⟨hc, ht⟩ := List.ne_and_not_mem_of_not_mem_cons h
    rw [plainEndsBefore, if_neg fun hcr => hc hcr.1.symm, ih ht]

theorem plainEndsBefore_cons (hc : c ≠ '\r') :
    plainEndsBefore after (c :: t) = c :: plainEndsBefore after t := by
  rw [plainEndsBefore, if_neg fun h => hc h.1]

theorem mem_of_mem_plainEndsBefore (h : c ∈ plainEndsBefore after t) : c ∈ t := by
  induction t with
  | nil => exact h
  | cons d t ih =>
    rw [plainEndsBefore] at h
    split at h
    · exact List.mem_cons_of_mem d (ih h)
    · rcases List.mem_cons.1 h with rfl | h
      · exact List.mem_cons_self
      · exact List.mem_cons_of_mem d (ih h)

/-- The first character that is left is the first one, unless that stood before a line feed. -/
theorem head?_of_plainEndsBefore (hc : c ≠ '\n') (h : (plainEndsBefore after t).head? = some c) :
    t.head? = some c := by
  cases t with
  | nil => exact h
  | cons d t =>
    rw [plainEndsBefore] at h
    split at h
    · next hd =>
      -- Then the line feed comes first, or nothing is left.
      cases t with
      | nil => cases h
      | cons e t =>
        obtain rfl : e = '\n' := Option.some.inj hd.2
        rw [plainEndsBefore, if_neg (by simp)] at h
        exact absurd (Option.some.inj h).symm hc
    · exact h

theorem keepsEnds_plainEndsBefore (after : Text) : KeepsEnds (plainEndsBefore after) where
  lineFeeds_eq body := by
    induction body with
    | nil => rfl
    | cons c body ih =>
      rw [plainEndsBefore]
      split
      · next h =>
        have hl : lineFeeds (c :: body) = lineFeeds body := by
          simp [lineFeeds, h.1]
        rw [hl, ih]
      · simp only [lineFeeds, List.count_cons] at ih ⊢
        rw [ih]
  quote_mem body := mem_of_mem_plainEndsBefore
  commentEnd_infix body h := by
    induction body with
    | nil => exact h
    | cons c body ih =>
      rw [plainEndsBefore] at h
      split at h
      · exact List.infix_cons (ih h)
      · rcases commentEnd_infix_cons.1 h with ⟨hc, hh⟩ | hi
        · exact commentEnd_infix_cons.2 (.inl ⟨hc, head?_of_plainEndsBefore (by decide) hh⟩)
        · exact List.infix_cons (ih hi)

theorem keepsEnds_plainEnds : KeepsEnds plainEnds := by
  have he : plainEnds = plainEndsBefore [] := funext plainEnds_eq
  rw [he]
  exact keepsEnds_plainEndsBefore []

end Text

/-! ## Pieces -/

def Literal.plainEnded : Literal → Literal
  | number v => .number v
  | text t => .text (Text.plainEnds t)

/-- Strings are the only tokens that may be written over several lines. -/
def Token.plainEnded (t : Token) : Token :=
  if t.kind = .string then
    { t with lexeme := Text.plainEnds t.lexeme, literal := t.literal.map Literal.plainEnded }
  else t

def Effect.ofPlainEnds : Effect where
  onToken := Token.plainEnded

section

variable {p : Piece} {old : Text}

/-- What is left of a piece that neither is a blank nor ends with the line. -/
theorem Piece.Fits.plainEndsBefore_text (h : p.Fits old) (hb : ∀ c, p ≠ .blank c)
    (hl : ∀ body, p ≠ .lineComment body) :
    Text.plainEndsBefore old p.text = (p.mapBody Text.plainEnds).text := by
  have hm : '\r' ∉ marks := by decide
  have hw : isWordCharacter '\r' = false := by decide
  cases p with
  | symbol s => exact Text.plainEndsBefore_of_not_mem fun hc => hm (s.mem_marks _ hc)
  | number whole fraction =>
    refine Text.plainEndsBefore_of_not_mem fun hc => ?_
    rcases h.wellFormed.mem_number _ hc with hc | hc
    · rw [hw] at hc
      cases hc
    · cases hc
  | word w =>
    have hword : IsWord w := h.wellFormed
    refine Text.plainEndsBefore_of_not_mem fun hc => ?_
    rw [hword.isWordCharacter _ hc] at hw
    cases hw
  | stray c =>
    refine Text.plainEndsBefore_of_not_mem fun hc => ?_
    obtain rfl : '\r' = c := List.mem_singleton.1 hc
    exact not_isStray_of_isBlank rfl h.wellFormed
  | blockComment body =>
    have hs : (['*', '/'] ++ old).head? ≠ some '\n' := by simp
    show Text.plainEndsBefore old ('/' :: '*' :: body ++ ['*', '/']) =
      '/' :: '*' :: Text.plainEnds body ++ ['*', '/']
    rw [Text.plainEndsBefore_append, Text.plainEndsBefore_cons (by decide),
      Text.plainEndsBefore_cons (by decide), Text.plainEndsBefore_eq hs,
      Text.plainEndsBefore_of_not_mem (by decide)]
  | string body =>
    have hs : (['\x22'] ++ old).head? ≠ some '\n' := by simp
    show Text.plainEndsBefore old ('\x22' :: body ++ ['\x22']) =
      '\x22' :: Text.plainEnds body ++ ['\x22']
    rw [Text.plainEndsBefore_append, Text.plainEndsBefore_cons (by decide),
      Text.plainEndsBefore_eq hs, Text.plainEndsBefore_of_not_mem (by decide)]
  | openComment body =>
    obtain rfl : old = [] := h.endsBefore
    show Text.plainEndsBefore [] ('/' :: '*' :: body) = '/' :: '*' :: Text.plainEnds body
    rw [Text.plainEndsBefore_cons (by decide), Text.plainEndsBefore_cons (by decide),
      Text.plainEnds_eq]
  | openString body =>
    obtain rfl : old = [] := h.endsBefore
    show Text.plainEndsBefore [] ('\x22' :: body) = '\x22' :: Text.plainEnds body
    rw [Text.plainEndsBefore_cons (by decide), Text.plainEnds_eq]
  | blank c => exact absurd rfl (hb c)
  | lineComment body => exact absurd rfl (hl body)

theorem Piece.Fits.token?_plainEnded (h : p.Fits old) (line : Nat) :
    (p.mapBody Text.plainEnds).token? line = (p.token? line).map Token.plainEnded := by
  cases p with
  | string body =>
    have hf : (Piece.string body).Fits [] := ⟨h.wellFormed, trivial⟩
    have ht := hf.plainEndsBefore_text (by simp) (by simp)
    rw [← Text.plainEnds_eq] at ht
    simp only [Piece.token?, Option.map_some, Token.plainEnded, if_true, ht]
    rfl
  | word w =>
    have hk : TokenKind.ofWord w ≠ .string := TokenKind.ofWord_ne (by simp) rfl w
    simp [Piece.mapBody, Piece.token?, Token.plainEnded, hk]
  | _ => rfl

theorem exists_rewrites_plainEnds (h : p.Fits old) :
    ∃ qs, Rewrites .ofPlainEnds old [p] (Text.plainEndsBefore old p.text) qs := by
  have hr : ∀ g line, (p.mapBody g).error? line = (p.error? line).bind Effect.ofPlainEnds.onError := by
    intro g line
    cases p <;> rfl
  cases p with
  | blank c =>
    by_cases hc : c = '\r' ∧ old.head? = some '\n'
    · -- The blank goes, and the line feed behind it stays.
      have ht : Text.plainEndsBefore old [c] = [] := by
        rw [Text.plainEndsBefore, if_pos (by simpa using hc)]
        rfl
      have hl : Text.lineFeeds [] = Text.lineFeeds [c] := by rw [hc.1]; rfl
      have ho : ∀ d ∈ old.head?, d = '\n' := by simp [hc.2]
      rw [Piece.text, ht]
      refine ⟨_, rewrites_blanks (by simp) ?_ hl rfl fun _ => rfl⟩
      intro new hn
      exact hn.trans (Text.standsFor_lineEnd ho _)
    · have ht : Text.plainEndsBefore old [c] = [c] := by
        rw [Text.plainEndsBefore, if_neg (by simpa using hc)]
        rfl
      rw [Piece.text, ht]
      exact ⟨_, rewrites_kept h (fun _ => rfl) fun _ => rfl⟩
  | lineComment body =>
    have ht : Text.plainEndsBefore old ('/' :: '/' :: body) =
        '/' :: '/' :: Text.plainEndsBefore old body := by
      rw [Text.plainEndsBefore_cons (by decide), Text.plainEndsBefore_cons (by decide)]
    rw [Piece.text, ht]
    exact ⟨_, rewrites_mapBody (Text.keepsEnds_plainEndsBefore old) h (fun _ => rfl) (hr _)⟩
  | _ =>
    rw [h.plainEndsBefore_text (by simp) (by simp)]
    exact ⟨_, rewrites_mapBody Text.keepsEnds_plainEnds h h.token?_plainEnded (hr _)⟩

end

/-- Writing a text with plain line ends. -/
def Rewriting.plainEnding : Rewriting where
  effect := .ofPlainEnds
  write old p := Text.plainEndsBefore old p.text
  exists_rewrites := exists_rewrites_plainEnds

theorem text_plainEnding (ps : List Piece) :
    Rewriting.plainEnding.text ps = Text.plainEnds (ps.flatMap Piece.text) := by
  induction ps with
  | nil => rfl
  | cons p ps ih => rw [Rewriting.text, ih, List.flatMap_cons, Text.plainEnds_append]; rfl

/-- Both kinds of line ends are equivalent. If every carriage return and line feed becomes a line
feed, the text scans to as many tokens, of the same kinds and on the same lines, with the same
lexemes and values, but that the lexemes and values of strings are changed like the text; and it scans
to the same errors. The stepwise lexer gives the same. -/
theorem scan_plainEnds (source : Text) :
    scan (Text.plainEnds source) =
        ⟨(scan source).tokens.map Token.plainEnded, (scan source).errors⟩ ∧
      ∃ ended, Lexer.tokenize { source := Text.plainEnds source } =
          (.ok ((scan source).tokens.map Token.plainEnded), ended) ∧
        ended.errors = (scan source).errors := by
  have hs : scan (Text.plainEnds source) =
      ⟨(scan source).tokens.map Token.plainEnded, (scan source).errors⟩ := by
    have ht : Text.plainEnds source = Rewriting.plainEnding.text (cut source) := by
      rw [text_plainEnding, flatMap_text_cut]
    rw [ht, Rewriting.scan_text _ (isCut_cut source)]
    simp [Scan.under, Rewriting.plainEnding, Effect.ofPlainEnds]
  exact ⟨hs, Lexer.tokenize_of_scan_eq hs⟩

end ScriptLexer
