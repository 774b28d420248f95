import ScriptLexer.Proofs.CutUniqueness
import ScriptLexer.Scan.Basic
import Mathlib.Data.List.Forall2

/-! # Pieces at their places

A piece of a cut has a place, which is given by the text before it. Tokens and errors of a text are
read off the placed pieces one by one, and counting lines from piece to piece comes to counting the
line feeds before each place. -/

namespace ScriptLexer

/-- A piece at its place in a text, which is given by the text before it. -/
structure Place where
  before : Text
  piece : Piece

/-- The places of consecutive pieces of which the first stands behind `before`. -/
def placed (before : Text) : List Piece → List Place
  | [] => []
  | p :: ps => ⟨before, p⟩ :: placed (before ++ p.text) ps

namespace Place

/-- The line on which the piece starts. -/
def line (a : Place) : Nat :=
  1 + Text.lineFeeds a.before

/-- The line on which the piece ends. -/
def endLine (a : Place) : Nat :=
  1 + Text.lineFeeds (a.before ++ a.piece.text)

end Place

/-- The tokens read off consecutive pieces, each on the line where its piece starts. -/
def readTokens (before : Text) (ps : List Piece) : List Token :=
  (placed before ps).filterMap fun a => a.piece.token? a.line

/-- The errors read off consecutive pieces, each on the line where its piece ends. -/
def readErrors (before : Text) (ps : List Piece) : List LexError :=
  (placed before ps).filterMap fun a => a.piece.error? a.endLine

/-- The pieces that have a token. -/
def Piece.isLexeme : Piece → Bool
  | symbol _ | string _ | number _ _ | word _ => true
  | _ => false

/-- The pieces that have an error. -/
def Piece.isFaulty : Piece → Bool
  | stray _ | openString _ | openComment _ => true
  | _ => false

namespace Piece

theorem isSome_token? (p : Piece) (line : Nat) : (p.token? line).isSome = p.isLexeme := by
  cases p <;> rfl

theorem isSome_error? (p : Piece) (line : Nat) : (p.error? line).isSome = p.isFaulty := by
  cases p <;> rfl

theorem error?_of_isLexeme {p : Piece} (h : p.isLexeme = true) (line : Nat) :
    p.error? line = none := by
  cases p with
  | symbol | string | number | word => rfl
  | _ => cases h

/-- A token has the text of its piece and the line that it was read on. -/
theorem lexeme_of_token? {p : Piece} {line : Nat} {t : Token} (h : p.token? line = some t) :
    t.lexeme = p.text ∧ t.line = line := by
  cases p <;> cases h <;> exact ⟨rfl, rfl⟩

theorem line_of_error? {p : Piece} {line : Nat} {e : LexError} (h : p.error? line = some e) :
    e.line = line := by
  cases p <;> cases h <;> rfl

end Piece

/-! ## Reading off -/

theorem filterMap_cons_toList {α β : Type} (f : α → Option β) (a : α) (l : List α) :
    (a :: l).filterMap f = (f a).toList ++ l.filterMap f := by
  cases h : f a <;> simp [h]

theorem readTokens_cons (before : Text) (p : Piece) (ps : List Piece) :
    readTokens before (p :: ps) =
      (p.token? (1 + Text.lineFeeds before)).toList ++ readTokens (before ++ p.text) ps :=
  filterMap_cons_toList _ _ _

theorem readErrors_cons (before : Text) (p : Piece) (ps : List Piece) :
    readErrors before (p :: ps) =
      (p.error? (1 + Text.lineFeeds (before ++ p.text))).toList ++
        readErrors (before ++ p.text) ps :=
  filterMap_cons_toList _ _ _

theorem readTokens_eq_nil {before : Text} {ps : List Piece} (h : ∀ p ∈ ps, p.isLexeme = false) :
    readTokens before ps = [] := by
  induction ps generalizing before with
  | nil => rfl
  | cons p ps ih =>
    have hp := p.isSome_token? (1 + Text.lineFeeds before)
    rw [h p List.mem_cons_self, Option.isSome_eq_false_iff, Option.isNone_iff_eq_none] at hp
    rw [readTokens_cons, hp, ih fun q hq => h q (List.mem_cons_of_mem p hq)]
    rfl

theorem readErrors_eq_nil {before : Text} {ps : List Piece} (h : ∀ p ∈ ps, p.isFaulty = false) :
    readErrors before ps = [] := by
  induction ps generalizing before with
  | nil => rfl
  | cons p ps ih =>
    have hp := p.isSome_error? (1 + Text.lineFeeds (before ++ p.text))
    rw [h p List.mem_cons_self, Option.isSome_eq_false_iff, Option.isNone_iff_eq_none] at hp
    rw [readErrors_cons, hp, ih fun q hq => h q (List.mem_cons_of_mem p hq)]
    rfl

/-- Counting lines along the pieces is counting line feeds before each place. -/
theorem Scan.ofPieces_eq (before : Text) (ps : List Piece) :
    Scan.ofPieces (1 + Text.lineFeeds before) ps =
      ⟨readTokens before ps ++
          [Token.endOfText (1 + Text.lineFeeds (before ++ ps.flatMap Piece.text) : Nat)],
        readErrors before ps⟩ := by
  induction ps generalizing before with
  | nil => simp [Scan.ofPieces, readTokens, readErrors, placed]
  | cons p ps ih =>
    have hl : 1 + Text.lineFeeds before + Text.lineFeeds p.text =
        1 + Text.lineFeeds (before ++ p.text) := by
      rw [Text.lineFeeds_append, Nat.add_assoc]
    simp only [Scan.ofPieces, hl, ih, readTokens_cons, readErrors_cons, List.flatMap_cons,
      List.append_assoc]

theorem tokens_scan {source : Text} {ps : List Piece} (h : IsCut source ps) :
    (scan source).tokens =
      readTokens [] ps ++ [Token.endOfText (1 + Text.lineFeeds source : Nat)] := by
  rw [scan, ← h.eq_cut, ← h.flatMap_text]
  exact congrArg Scan.tokens (Scan.ofPieces_eq [] ps)

theorem errors_scan {source : Text} {ps : List Piece} (h : IsCut source ps) :
    (scan source).errors = readErrors [] ps := by
  rw [scan, ← h.eq_cut]
  exact congrArg Scan.errors (Scan.ofPieces_eq [] ps)

/-- What a partial function finds in a list belongs one by one to the elements where it finds
something. -/
theorem forall₂_filterMap {α β : Type} (f : α → Option β) (found : α → Bool) (l : List α)
    (h : ∀ a ∈ l, (f a).isSome = found a) :
    List.Forall₂ (fun b a => a ∈ l ∧ f a = some b) (l.filterMap f) (l.filter found) := by
  induction l with
  | nil => exact .nil
  | cons a l ih =>
    have hl := ih fun b hb => h b (List.mem_cons_of_mem a hb)
    have ha := h a List.mem_cons_self
    have hl' := hl.imp fun b x (hx : x ∈ l ∧ f x = some b) =>
      (⟨List.mem_cons_of_mem a hx.1, hx.2⟩ : x ∈ a :: l ∧ f x = some b)
    cases hf : f a with
    | none =>
      rw [List.filterMap_cons_none hf, List.filter_cons_of_neg (by simp [← ha, hf])]
      exact hl'
    | some b =>
      rw [List.filterMap_cons_some hf, List.filter_cons_of_pos (by simp [← ha, hf])]
      exact .cons ⟨List.mem_cons_self, hf⟩ hl'

theorem forall₂_readTokens (before : Text) (ps : List Piece) :
    List.Forall₂ (fun t a => a ∈ placed before ps ∧ a.piece.token? a.line = some t)
      (readTokens before ps) ((placed before ps).filter fun a => a.piece.isLexeme) :=
  forall₂_filterMap _ _ _ fun a _ => a.piece.isSome_token? a.line

theorem forall₂_readErrors (before : Text) (ps : List Piece) :
    List.Forall₂ (fun e a => a ∈ placed before ps ∧ a.piece.error? a.endLine = some e)
      (readErrors before ps) ((placed before ps).filter fun a => a.piece.isFaulty) :=
  forall₂_filterMap _ _ _ fun a _ => a.piece.isSome_error? a.endLine

/-- A placed piece fits what comes after it in the text. -/
theorem fits_of_mem_placed {before t : Text} {ps : List Piece} (h : IsCut t ps) {a : Place}
    (ha : a ∈ placed before ps) :
    ∃ after, a.piece.Fits after ∧ before ++ t = a.before ++ a.piece.text ++ after := by
  induction h generalizing before with
  | nil => cases ha
  | @cons p after ps hf _ ih =>
    rcases List.mem_cons.1 ha with rfl | ha
    · exact ⟨after, hf, by simp⟩
    · obtain ⟨after', hf', he⟩ := ih ha
      exact ⟨after', hf', by rw [← he, List.append_assoc]⟩

end ScriptLexer
