import ScriptLexer.Proofs.Tokenizing

/-! # What a reader can do

A reader, wherever it is started, passes a stretch of what comes next, and then it ends in one of
three ways: it is done, it adds one token for the lexeme that reaches up to the cursor, or it fails.
Nothing else is touched. What later modules say about readers, successful or not, is read off
this. -/

namespace ScriptLexer.Lexer

/-- The outcomes that a reader started at `l` can have. -/
inductive Reads (l : Lexer) : Outcome Unit → Prop
  | skip {t : Text} : t <+: l.unread → Reads l (.ok (), l.consume t)
  | add {t : Text} (kind : TokenKind) (literal : Option Literal) : t <+: l.unread →
      Reads l (.ok (), (l.consume t).push kind literal)
  | fail {t : Text} (f : Failure) : t <+: l.unread → Reads l (.error f, l.consume t)

variable {l : Lexer} {o : Outcome Unit} {t : Text}

/-- A reader that is started behind a stretch of what comes next. -/
theorem Reads.behind (h : t <+: l.unread) (ho : Reads (l.consume t) o) : Reads l o := by
  obtain ⟨rest, hr⟩ := h
  have hu : (l.consume t).unread = rest := unread_consume hr.symm
  have hp : ∀ s, s <+: (l.consume t).unread → t ++ s <+: l.unread := by
    intro s hs
    rw [hu] at hs
    rw [← hr]
    exact (List.prefix_append_right_inj t).2 hs
  cases ho with
  | skip hs =>
    rw [consume_consume]
    exact .skip (hp _ hs)
  | add kind literal hs =>
    rw [consume_consume]
    exact .add kind literal (hp _ hs)
  | fail f hs =>
    rw [consume_consume]
    exact .fail f (hp _ hs)

/-- A reader that passes nothing. -/
theorem reads_push (kind : TokenKind) (literal : Option Literal) (l : Lexer) :
    Reads l (.ok (), l.push kind literal) :=
  .add kind literal List.nil_prefix

theorem reads_blockComment (l : Lexer) : Reads l l.blockComment := by
  unfold blockComment
  split
  · next body after h =>
    exact .skip ⟨after, by simpa using splitComment_eq h⟩
  · exact .fail _ List.prefix_rfl

theorem reads_slash (l : Lexer) : Reads l l.slash := by
  unfold slash
  split
  · next rest h =>
    refine .skip ?_
    rw [h]
    exact (List.prefix_cons_inj '/').2 (List.takeWhile_prefix _)
  · next rest h =>
    refine .behind ?_ (reads_blockComment _)
    rw [h]
    exact ⟨rest, rfl⟩
  · exact reads_push _ _ _

theorem reads_string (l : Lexer) : Reads l l.string := by
  unfold string
  split
  · next body after h =>
    refine .add _ _ ⟨after, ?_⟩
    simpa using splitString_eq h
  · exact .fail _ List.prefix_rfl

theorem numberTail_isPrefix (t : Text) : numberTail t <+: t := by
  unfold numberTail
  split
  · next fraction after h =>
    refine ⟨after, ?_⟩
    rw [List.append_assoc, splitFraction_eq h, List.takeWhile_append_dropWhile]
  · rw [List.append_nil]
    exact List.takeWhile_prefix _

theorem reads_number (l : Lexer) : Reads l l.number := by
  have hp := numberTail_isPrefix l.unread
  simp only [number]
  split
  · exact .add _ _ hp
  · exact .fail _ hp

theorem reads_identifier (l : Lexer) : Reads l l.identifier :=
  .add _ _ (List.takeWhile_prefix _)

theorem reads_equalSuffixed (single double : Symbol) (l : Lexer) :
    Reads l (.ok (), l.equalSuffixed single double) := by
  unfold equalSuffixed
  split
  · next rest h =>
    refine .add _ _ ?_
    rw [h]
    exact ⟨rest, rfl⟩
  · exact reads_push _ _ _

theorem reads_readPiece (c : Char) (l : Lexer) : Reads l (l.readPiece c) := by
  unfold readPiece
  split
  · exact reads_push _ _ _
  · exact reads_equalSuffixed _ _ _
  · exact reads_slash _
  · exact .skip List.nil_prefix
  · exact reads_string _
  · exact reads_number _
  · exact reads_identifier _
  · exact .fail _ List.nil_prefix

theorem reads_scanToken (l : Lexer) : Reads l l.scanToken := by
  unfold scanToken
  split
  · exact .fail _ List.nil_prefix
  · next c rest h =>
    refine .behind ?_ (reads_readPiece _ _)
    rw [h]
    exact ⟨rest, rfl⟩

end ScriptLexer.Lexer
