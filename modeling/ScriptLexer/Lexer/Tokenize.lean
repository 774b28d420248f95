import ScriptLexer.Lexer.Basic

/-! # Tokenizing

A lexer reads its whole source piece by piece. Lexical errors are recorded and reading goes on,
except after a block comment that is not closed. Every reader leaves the source alone and moves the
cursor forward, so the unread text shrinks with each piece. -/

namespace ScriptLexer.Lexer

/-! ## Readers move forward -/

/-- The source is the same and the cursor has not gone back. -/
def Forward (l l' : Lexer) : Prop :=
  l'.source = l.source ∧ l.current ≤ l'.current

theorem Forward.refl (l : Lexer) : Forward l l :=
  ⟨rfl, Nat.le_refl _⟩

theorem Forward.trans {a b c : Lexer} (h : Forward a b) (h' : Forward b c) : Forward a c :=
  ⟨h'.1.trans h.1, Nat.le_trans h.2 h'.2⟩

theorem forward_consume (t : Text) (l : Lexer) : Forward l (l.consume t) :=
  ⟨rfl, Nat.le_add_right _ _⟩

theorem forward_push (kind : TokenKind) (literal : Option Literal) (l : Lexer) :
    Forward l (l.push kind literal) :=
  ⟨rfl, Nat.le_refl _⟩

theorem forward_blockComment (l : Lexer) : Forward l l.blockComment.2 := by
  unfold blockComment
  split <;> exact forward_consume _ _

theorem forward_slash (l : Lexer) : Forward l l.slash.2 := by
  unfold slash
  split
  · exact forward_consume _ _
  · exact (forward_consume _ _).trans (forward_blockComment _)
  · exact forward_push _ _ _

theorem forward_string (l : Lexer) : Forward l l.string.2 := by
  unfold string
  split
  · exact (forward_consume _ _).trans (forward_push _ _ _)
  · exact forward_consume _ _

theorem forward_number (l : Lexer) : Forward l l.number.2 := by
  simp only [number]
  split
  · exact (forward_consume _ _).trans (forward_push _ _ _)
  · exact forward_consume _ _

theorem forward_identifier (l : Lexer) : Forward l l.identifier.2 :=
  (forward_consume _ _).trans (forward_push _ _ _)

theorem forward_equalSuffixed (single double : Symbol) (l : Lexer) :
    Forward l (l.equalSuffixed single double) := by
  unfold equalSuffixed
  split
  · exact (forward_consume _ _).trans (forward_push _ _ _)
  · exact forward_push _ _ _

theorem forward_readPiece (c : Char) (l : Lexer) : Forward l (l.readPiece c).2 := by
  unfold readPiece
  split
  · exact forward_push _ _ _
  · exact forward_equalSuffixed _ _ _
  · exact forward_slash _
  · exact Forward.refl _
  · exact forward_string _
  · exact forward_number _
  · exact forward_identifier _
  · exact Forward.refl _

/-- A piece takes at least the character it starts with. -/
theorem forward_scanToken {l : Lexer} {c : Char} {rest : Text} (h : l.unread = c :: rest) :
    Forward (l.consume [c]) l.scanToken.2 := by
  simp only [scanToken, h]
  exact forward_readPiece _ _

theorem length_unread_scanToken_lt {l : Lexer} (h : l.unread ≠ []) :
    l.begin.scanToken.2.unread.length < l.unread.length := by
  obtain ⟨c, rest, hc⟩ := List.exists_cons_of_ne_nil h
  obtain ⟨hs, hle⟩ := forward_scanToken (l := l.begin) hc
  have hlen := congrArg List.length hc
  simp only [unread, consume, begin, List.length_drop, List.length_cons, List.length_nil] at *
  rw [hs]
  omega

/-! ## The whole source -/

/-- Reads pieces up to the end of the source. -/
def readAll (l : Lexer) : Outcome Unit :=
  if l.unread = [] then (.ok (), l)
  else
    let next := l.begin.scanToken
    match next.1 with
    | .ok () => readAll next.2
    | .error (.lexical e) =>
      if e.halts then (.ok (), next.2.record e) else readAll (next.2.record e)
    | .error f => (.error f, next.2)
termination_by l.unread.length
decreasing_by
  all_goals exact length_unread_scanToken_lt (by assumption)

/-- The lexer with nothing read. -/
def rewind (l : Lexer) : Lexer :=
  { source := l.source }

/-- The lexer with the token for the end of the text behind its others. -/
def close (l : Lexer) : Lexer :=
  { l with tokens := l.tokens ++ [Token.endOfText l.line] }

/-- Reads the whole source from its beginning, whatever was read before, and closes the tokens. -/
def tokenize (l : Lexer) : Outcome (List Token) :=
  match l.rewind.readAll with
  | (.ok (), ended) => (.ok ended.close.tokens, ended.close)
  | (.error f, stopped) => (.error f, stopped)

end ScriptLexer.Lexer
