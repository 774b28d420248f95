import ScriptLexer.Scan.Cut
import ScriptLexer.Proofs.Characters

/-! # The lexical grammar

What the pieces of a text look like, said without reading a text: a piece has a shape of its own,
and a condition on what may follow it. A text is cut by the grammar if it falls into well-formed
pieces each of which may stand before what comes after it. Nothing here says that there is such a
cut, or only one. -/

namespace ScriptLexer

/-- One or more digits. -/
def IsDigits (t : Text) : Prop :=
  t ≠ [] ∧ ∀ c ∈ t, isDigit c = true

/-- A letter or an underscore, and then word characters. -/
def IsWord : Text → Prop
  | [] => False
  | c :: rest => isLetter c = true ∧ ∀ d ∈ rest, isWordCharacter d = true

/-- Together with the end of the comment, the body has that end only where it ends. -/
def ClosesOnce (body : Text) : Prop :=
  ∀ before after, before ++ ['*', '/'] ++ after = body ++ ['*', '/'] → after = []

/-- A point with a digit after it. -/
def StartsFraction (t : Text) : Prop :=
  ∃ d rest, t = '.' :: d :: rest ∧ isDigit d = true

/-- What may follow a symbol: an equals sign after `!`, `=`, `<` or `>` would belong to the symbol,
and a slash or a star after a slash would open a comment. -/
def Symbol.EndsBefore (after : Text) : Symbol → Prop
  | bang | equal | less | greater => after.head? ≠ some '='
  | slash => after.head? ≠ some '/' ∧ after.head? ≠ some '*'
  | _ => True

namespace Piece

/-- The shape of a piece, whatever follows it. -/
def WellFormed : Piece → Prop
  | symbol _ => True
  | blank c => isBlank c = true
  | lineComment body => '\n' ∉ body
  | blockComment body => ClosesOnce body
  | openComment body => ¬ ['*', '/'] <:+: body
  | string body => '\x22' ∉ body
  | openString body => '\x22' ∉ body
  | number whole fraction => IsDigits whole ∧ ∀ f ∈ fraction, IsDigits f
  | word w => IsWord w
  | stray c => IsStray c

/-- What may follow a piece. An open string or comment reaches the end of the text, a line comment
the end of the line; numbers and words are as long as they can be. -/
def EndsBefore (after : Text) : Piece → Prop
  | symbol s => s.EndsBefore after
  | lineComment _ => ∀ c ∈ after.head?, c = '\n'
  | openComment _ => after = []
  | openString _ => after = []
  | number _ none => Text.StopsRun isDigit after ∧ ¬ StartsFraction after
  | number _ (some _) => Text.StopsRun isDigit after
  | word _ => Text.StopsRun isWordCharacter after
  | _ => True

/-- A well-formed piece in front of a text that may follow it. -/
structure Fits (p : Piece) (after : Text) : Prop where
  wellFormed : p.WellFormed
  endsBefore : p.EndsBefore after

end Piece

/-- The text falls into these pieces, each of which fits what comes after it. -/
inductive IsCut : Text → List Piece → Prop
  | nil : IsCut [] []
  | cons {p : Piece} {after : Text} {ps : List Piece} :
      p.Fits after → IsCut after ps → IsCut (p.text ++ after) (p :: ps)

/-! ## Small facts about shapes -/

theorem isDigits_cons {d : Char} {rest : Text} :
    IsDigits (d :: rest) ↔ isDigit d = true ∧ ∀ c ∈ rest, isDigit c = true := by
  simp [IsDigits]

theorem IsDigits.exists_cons {t : Text} (h : IsDigits t) :
    ∃ d rest, t = d :: rest ∧ isDigit d = true := by
  obtain ⟨d, rest, rfl⟩ := List.exists_cons_of_ne_nil h.1
  exact ⟨d, rest, rfl, (isDigits_cons.1 h).1⟩

theorem IsWord.ne_nil {w : Text} (h : IsWord w) : w ≠ [] := by
  rintro rfl
  exact h

theorem IsWord.isWordCharacter {w : Text} (h : IsWord w) :
    ∀ c ∈ w, ScriptLexer.isWordCharacter c = true := by
  cases w with
  | nil => exact h.elim
  | cons d rest => exact List.forall_mem_cons.2 ⟨isWordCharacter_of_isLetter h.1, h.2⟩

theorem Symbol.mem_marks (s : Symbol) : ∀ c ∈ s.spelling, c ∈ marks := by
  cases s <;> exact Text.forall_mem_of_all (by decide)

/-- A number is made of digits, which are word characters, and perhaps a point. -/
theorem Piece.WellFormed.mem_number {whole : Text} {fraction : Option Text}
    (h : (number whole fraction).WellFormed) :
    ∀ c ∈ (number whole fraction).text, isWordCharacter c = true ∨ c = '.' := by
  have hd : ∀ t, IsDigits t → ∀ c ∈ t, isWordCharacter c = true ∨ c = '.' :=
    fun t ht c hc => .inl (isWordCharacter_of_isDigit (ht.2 c hc))
  cases fraction with
  | none => exact hd whole h.1
  | some f =>
    intro c hc
    rcases List.mem_append.1 hc with hc | hc
    · exact hd whole h.1 c hc
    · rcases List.mem_cons.1 hc with hc | hc
      · exact .inr hc
      · exact hd f (h.2 f rfl) c hc

theorem closesOnce_nil : ClosesOnce [] := by
  intro before after h
  have hl := congrArg List.length h
  simp only [List.length_append, List.length_cons, List.length_nil] at hl
  exact List.length_eq_zero_iff.1 (by omega)

/-- A body closes only at its end if its tail does and it does not itself start with the end. -/
theorem closesOnce_cons {c : Char} {body : Text} :
    ClosesOnce (c :: body) ↔ ClosesOnce body ∧ ¬ (c = '*' ∧ body.head? = some '/') := by
  constructor
  · intro h
    refine ⟨fun before after he => h (c :: before) after (by simpa using he), ?_⟩
    rintro ⟨rfl, hb⟩
    cases body with
    | nil => simp at hb
    | cons d rest =>
      obtain rfl : d = '/' := by simpa using hb
      -- The end at the front would leave the end at the back behind it.
      have hr := h [] (rest ++ ['*', '/']) (by simp)
      simp at hr
  · rintro ⟨hb, hn⟩ before after he
    cases before with
    | nil =>
      cases body with
      | nil => simp at he
      | cons d rest =>
        simp only [List.nil_append, List.cons_append, List.cons.injEq] at he
        exact absurd ⟨he.1.symm, by simp [← he.2.1]⟩ hn
    | cons b before =>
      simp only [List.cons_append, List.cons.injEq] at he
      exact hb before after he.2

theorem commentEnd_infix_cons {c : Char} {body : Text} :
    ['*', '/'] <:+: c :: body ↔ (c = '*' ∧ body.head? = some '/') ∨ ['*', '/'] <:+: body := by
  have hp : ['*', '/'] <+: c :: body ↔ c = '*' ∧ body.head? = some '/' := by
    cases body <;> simp [List.cons_prefix_cons, eq_comm]
  rw [List.infix_cons_iff, hp]

/-- A body closes only at its end exactly if the end of a comment is not in it. -/
theorem closesOnce_iff {body : Text} : ClosesOnce body ↔ ¬ ['*', '/'] <:+: body := by
  induction body with
  | nil => simp [closesOnce_nil]
  | cons c body ih => rw [closesOnce_cons, ih, commentEnd_infix_cons, not_or, and_comm]

theorem Piece.WellFormed.text_ne_nil {p : Piece} (h : p.WellFormed) : p.text ≠ [] := by
  cases p with
  | symbol s => exact s.spelling_ne_nil
  | number whole fraction =>
    cases fraction with
    | none => exact h.1.1
    | some f => simp [text]
  | word w => exact h.ne_nil
  | _ => simp [text]

theorem IsCut.flatMap_text {t : Text} {ps : List Piece} (h : IsCut t ps) :
    ps.flatMap Piece.text = t := by
  induction h with
  | nil => rfl
  | cons _ _ ih => rw [List.flatMap_cons, ih]

/-- Blanks in front of a text are pieces of their own. -/
theorem IsCut.blanks_append {t after : Text} {ps : List Piece} (h : IsCut after ps)
    (ht : ∀ c ∈ t, isBlank c = true) : IsCut (t ++ after) (t.map .blank ++ ps) := by
  induction t with
  | nil => exact h
  | cons c t ih =>
    obtain ⟨hc, ht⟩ := List.forall_mem_cons.1 ht
    have hf : (Piece.blank c).Fits (t ++ after) := ⟨hc, trivial⟩
    exact .cons hf (ih ht)

theorem IsCut.wellFormed {t : Text} {ps : List Piece} (h : IsCut t ps) :
    ∀ p ∈ ps, p.WellFormed := by
  induction h with
  | nil => simp
  | cons hf _ ih => exact List.forall_mem_cons.2 ⟨hf.wellFormed, ih⟩

/-- A piece in a cut fits the text of the pieces behind it. -/
theorem IsCut.fits_of_append {t : Text} {p : Piece} {qs rs : List Piece}
    (h : IsCut t (qs ++ p :: rs)) : p.Fits (rs.flatMap Piece.text) := by
  induction qs generalizing t with
  | nil =>
    cases h with
    | cons hf hr => rwa [hr.flatMap_text]
  | cons q qs ih =>
    cases h with
    | cons _ hr => exact ih hr

end ScriptLexer
