import ScriptLexer.Proofs.WatchedReaders
import Mathlib.Data.List.Perm.Subperm

/-! # Tokenizing cannot go wrong

A pass over a piece begins where the cursor is, moves it forward over the piece, and leaves no error
uncaught. So the passes over a whole source begin at positions that increase and stay within it, and
there are at most as many as characters; the errors raised are the errors recorded. Nothing of this
depends on what the lexer did before, since tokenizing begins with rewinding it. -/

namespace ScriptLexer

/-- Increasing positions in a text are no more than its characters. -/
theorem length_le_of_increasing {positions : List Nat} {n : Nat}
    (h : (positions ++ [n]).Pairwise (· < ·)) : positions.length ≤ n := by
  obtain ⟨hp, -, hlt⟩ := List.pairwise_append.1 h
  have hnd : positions.Nodup := hp.imp Nat.ne_of_lt
  have hs : positions ⊆ List.range n := fun i hi =>
    List.mem_range.2 (hlt i hi n (List.mem_singleton_self n))
  simpa using (hnd.subperm hs).length_le

/-- What marks say about acts can be read off the acts. -/
theorem filterMap_filter_isMark {α : Type} {f : Act → Option α}
    (h : ∀ a, a.isMark = false → f a = none) (acts : List Act) :
    (acts.filter Act.isMark).filterMap f = acts.filterMap f := by
  rw [List.filterMap_filter]
  refine List.filterMap_congr fun a _ => ?_
  by_cases ha : a.isMark = true
  · rw [if_pos ha]
  · rw [if_neg ha, h a (by simpa using ha)]

namespace Work

variable {l : Lexer} {c : Char} {rest : Text} {ms : List Act}

/-! ## One piece -/

theorem does_piecePass {l₁ : Lexer} {r : Except Trouble (Option Unit)} (h : l.unread = c :: rest)
    (hw : Does (tryCatch (do scanToken; return none) recover) l.begin r l₁ ms) :
    Does piecePass l r l₁ (.pass l.current :: ms) := by
  have hp : Act.InOrder l.source (.pass l.current) := Lexer.lt_length_of_unread h
  exact (does_atEnd_of_cons h).bind
    (does_lexer.bind ((does_note hp).bind ((does_change rfl).bind hw)))

/-- A piece without an error is passed. -/
theorem does_piecePass_clean (h : l.unread = c :: rest)
    (he : (Piece.read c rest).1.error? (l.past (Piece.read c rest).1).line = none) :
    Does piecePass l (.ok none) (l.past (Piece.read c rest).1) [.pass l.current] := by
  have hs := follows_scanToken h
  rw [Lexer.scanToken_begin h, Piece.outcome, he] at hs
  exact does_piecePass h (Does.bind hs (does_pure none)).tryCatch_ok

/-- The error of a piece is raised, caught and recorded. -/
theorem does_piecePass_faulty {e : LexError} (h : l.unread = c :: rest)
    (he : (Piece.read c rest).1.error? (l.past (Piece.read c rest).1).line = some e) :
    Does piecePass l (.ok (if e.halts then some () else none))
      ((l.past (Piece.read c rest).1).record e) [.pass l.current, .raise e] := by
  have hs := follows_scanToken h
  rw [Lexer.scanToken_begin h, Piece.outcome, he] at hs
  exact does_piecePass h
    ((Does.bind_error hs).tryCatch_error ((does_change rfl).bind (does_pure _)))

/-! ## The whole source -/

/-- From `l` to `ended` the errors raised have been recorded, and every pass has begun behind the one
before it. -/
structure RunsOn (l ended : Lexer) (marks : List Act) : Prop where
  errors : ended.errors = l.errors ++ marks.filterMap Act.raised?
  increasing : (marks.filterMap Act.pass? ++ [ended.current]).Pairwise (· < ·)
  le : ∀ i ∈ marks.filterMap Act.pass? ++ [ended.current], l.current ≤ i

theorem RunsOn.refl (l : Lexer) : RunsOn l l [] :=
  ⟨(List.append_nil _).symm, List.pairwise_singleton _ _, by simp⟩

/-- One more pass in front, with the errors of its piece. -/
theorem RunsOn.behind {m ended : Lexer} {es : List LexError} (hlt : l.current < m.current)
    (he : m.errors = l.errors ++ es) (h : RunsOn m ended ms) :
    RunsOn l ended (.pass l.current :: es.map .raise ++ ms) := by
  have hr : (Act.pass l.current :: es.map .raise ++ ms).filterMap Act.raised? =
      es ++ ms.filterMap Act.raised? := by
    rw [List.filterMap_append, List.filterMap_cons_none rfl, List.filterMap_map]
    exact congrArg (· ++ _) List.filterMap_some
  have hp : (Act.pass l.current :: es.map .raise ++ ms).filterMap Act.pass? =
      l.current :: ms.filterMap Act.pass? := by
    simp [Act.pass?]
  refine ⟨?_, ?_, ?_⟩
  · rw [hr, h.errors, he, List.append_assoc]
  · rw [hp]
    exact List.pairwise_cons.2 ⟨fun i hi => hlt.trans_le (h.le i hi), h.increasing⟩
  · rw [hp]
    exact List.forall_mem_cons.2 ⟨Nat.le_refl _, fun i hi => hlt.le.trans (h.le i hi)⟩

/-- Passes over pieces come to what reading on comes to, if there may be more of them than there are
characters left. -/
theorem exists_does_passes (n : Nat) (l : Lexer) (hn : l.unread.length < n) : ∃ ended marks,
    l.readAll = (.ok (), ended) ∧ Does (passes piecePass n) l (.ok ()) ended marks ∧
      RunsOn l ended marks := by
  induction n generalizing l with
  | zero => cases hn
  | succ n ih =>
    rw [Lexer.readAll]
    cases h : l.unread with
    | nil =>
      have he : Does piecePass l (.ok (some ())) l [] := (does_atEnd_of_nil h).bind (does_pure _)
      exact ⟨l, [], by rw [if_pos rfl], does_passes_last he n, .refl l⟩
    | cons c rest =>
      rw [if_neg (List.cons_ne_nil c rest), Lexer.scanToken_begin h]
      have hclean := does_piecePass_clean h
      have hfaulty := fun e => does_piecePass_faulty (e := e) h
      have hlen := Piece.length_read_lt c rest
      have ht := Piece.read_text c rest
      have hne := Piece.text_read_ne_nil c rest
      generalize (Piece.read c rest).1 = p at *
      generalize (Piece.read c rest).2 = after at *
      have hlt : l.current < (l.past p).current :=
        Nat.lt_add_of_pos_right (List.length_pos_iff.2 hne)
      have hu : (l.past p).unread.length < n := by
        rw [h] at hn
        rw [Lexer.unread_past (h.trans ht.symm)]
        omega
      cases he : p.error? (l.past p).line with
      | none =>
        have hb : (l.past p).errors = l.errors ++ [] := (List.append_nil _).symm
        obtain ⟨ended, marks, hr, hd, ha⟩ := ih (l.past p) hu
        refine ⟨ended, _, ?_, does_passes_next (hclean he) hd, ha.behind hlt hb⟩
        simp [Piece.outcome, he, hr]
      | some e =>
        have hp := hfaulty e he
        have hb : ((l.past p).record e).errors = l.errors ++ [e] := rfl
        have hlt' : l.current < ((l.past p).record e).current := hlt
        cases hh : e.halts with
        | true =>
          rw [hh] at hp
          refine ⟨_, _, ?_, does_passes_last hp n, (RunsOn.refl _).behind hlt' hb⟩
          simp [Piece.outcome, he, hh]
        | false =>
          rw [hh] at hp
          obtain ⟨ended, marks, hr, hd, ha⟩ := ih ((l.past p).record e) hu
          refine ⟨ended, _, ?_, does_passes_next hp hd, ha.behind hlt' hb⟩
          simp [Piece.outcome, he, hh, hr]

theorem exists_does_tokenize (l : Lexer) : ∃ tokens ended marks,
    l.tokenize = (.ok tokens, ended) ∧ Does tokenize l (.ok tokens) ended marks ∧
      RunsOn l.rewind ended marks := by
  obtain ⟨ended, marks, hr, hd, ha⟩ := exists_does_passes _ l.rewind (Nat.lt_succ_self _)
  have hc : Does tokenize l (.ok ended.close.tokens) ended.close (marks ++ []) :=
    (does_change rfl).bind ((does_loop hd).bind
      ((does_change rfl).bind (does_lexer.bind (does_pure ended.close.tokens))))
  rw [List.append_nil] at hc
  refine ⟨ended.close.tokens, ended.close, marks, ?_, hc, ha.errors, ha.increasing, ha.le⟩
  rw [Lexer.tokenize, hr]

end Work

/-- Whatever was done with a lexer, tokenizing gives tokens. Done under watch it comes to the same, so
no loop is given up; no character is read and no cursor set beyond the source, only numbers are
converted, only single characters are rejected, every error that is raised is recorded, and each pass
begins further on in the source than the one before. -/
theorem tokenize_never_fails (l : Lexer) : ∃ tokens ended acts,
    l.tokenize = (.ok tokens, ended) ∧ Work.tokenize { lexer := l } = (.ok tokens, ⟨ended, acts⟩) ∧
    (∀ i, .read i ∈ acts → i < l.source.length) ∧
    (∀ i, .move i ∈ acts → i ≤ l.source.length) ∧
    (∀ t, .convert t ∈ acts → IsNumber t ∧ ∃ v, Binary64.ofText? t = some v) ∧
    (∀ t, .unexpected t ∈ acts → ∃ c ∈ l.source, t = [c]) ∧
    acts.filterMap Act.raised? = ended.errors ∧
    (acts.filterMap Act.pass? ++ [l.source.length]).Pairwise (· < ·) ∧
    (acts.filterMap Act.pass?).length ≤ l.source.length ∧ ended.current = l.source.length := by
  obtain ⟨tokens, ended, marks, ht, ⟨-, acts, hw, ha, hm⟩, he, hi, -⟩ := Work.exists_does_tokenize l
  obtain ⟨ended', ht', -, -, -, hc, -⟩ := l.tokenize_eq
  obtain ⟨-, rfl⟩ : _ ∧ ended' = ended := by simpa using ht'.symm.trans ht
  have hr : acts.filterMap Act.raised? = ended'.errors := by
    rw [he, ← hm, filterMap_filter_isMark fun a h => by cases a <;> first | rfl | cases h]
    rfl
  have hp : (acts.filterMap Act.pass? ++ [l.source.length]).Pairwise (· < ·) := by
    rw [← hm, filterMap_filter_isMark fun a h => by cases a <;> first | rfl | cases h] at hi
    rwa [← hc]
  refine ⟨tokens, ended', acts, ht, hw [], fun i => ha _, fun i => ha _, fun t hn => ?_,
    fun t => ha _, hr, hp, length_le_of_increasing hp, hc⟩
  have hn : IsNumber t := ha _ hn
  exact ⟨hn, hn.exists_ofText?⟩

/-- A word and a character that starts nothing: it is seen as the end of the word and taken for a piece
of its own. -/
example : (Work.tokenize { lexer := { source := ['a', '@'] } }).2.acts =
    [.pass 0, .read 0, .move 1, .read 1, .pass 1, .read 1, .move 2, .unexpected ['@'],
      .raise (LexError.unexpectedCharacter '@' 1)] := by
  decide +kernel

end ScriptLexer
