import ScriptLexer.Proofs.Readings
import ScriptLexer.Proofs.Sessions

/-! # The cursor of a session

A reader, wherever it is started, moves the cursor over what comes next in the source and counts the
line feeds there, also when it fails. Only a character that is taken by itself is passed without
being counted. So in a session on one source the cursor stays within the source, and its line is
short of the true one by the line feeds that were taken by themselves since the source was last
tokenized. When the source is replaced the cursor may be left outside it, but the lexeme still does
not start behind the cursor, nor on a later line. -/

namespace ScriptLexer

namespace Lexer

/-! ## Reading on -/

/-- `l'` has read on from `l`: the cursor has passed what came next in the source, its line feeds are
counted, and the lexeme starts where it did. Tokens and errors may be anything. -/
structure ReadsOn (l l' : Lexer) : Prop where
  source : l'.source = l.source
  start : l'.start = l.start
  startLine : l'.startLine = l.startLine
  passed : ∃ t, t <+: l.unread ∧ l'.current = l.current + t.length ∧
    l'.line = l.line + Text.lineFeeds t

variable {l l' l'' : Lexer} {t : Text}

theorem ReadsOn.refl (l : Lexer) : ReadsOn l l :=
  ⟨rfl, rfl, rfl, [], List.nil_prefix, rfl, rfl⟩

theorem ReadsOn.trans (h : ReadsOn l l') (h' : ReadsOn l' l'') : ReadsOn l l'' := by
  obtain ⟨hs, hb, hbl, t, ⟨rest, ht⟩, hc, hl⟩ := h
  obtain ⟨hs', hb', hbl', t', hp, hc', hl'⟩ := h'
  have hu : l'.unread = rest := by
    rw [unread, hs, hc]
    exact unread_consume ht.symm
  rw [hu] at hp
  refine ⟨hs'.trans hs, hb'.trans hb, hbl'.trans hbl, t ++ t', ?_, ?_, ?_⟩
  · rw [← ht]
    exact (List.prefix_append_right_inj t).2 hp
  · rw [hc', hc, List.length_append, Nat.add_assoc]
  · rw [hl', hl, Text.lineFeeds_append, Nat.add_assoc]

theorem readsOn_consume (h : t <+: l.unread) : ReadsOn l (l.consume t) :=
  ⟨rfl, rfl, rfl, t, h, rfl, rfl⟩

theorem readsOn_found (tokens : List Token) (errors : List LexError) (l : Lexer) :
    ReadsOn l { l with tokens, errors } :=
  ⟨rfl, rfl, rfl, [], List.nil_prefix, rfl, rfl⟩

theorem readsOn_push (kind : TokenKind) (literal : Option Literal) (l : Lexer) :
    ReadsOn l (l.push kind literal) :=
  readsOn_found _ l.errors l

theorem readsOn_record (e : LexError) (l : Lexer) : ReadsOn l (l.record e) :=
  readsOn_found l.tokens _ l

/-! ## The readers read on -/

theorem Reads.readsOn {o : Outcome Unit} (h : Reads l o) : ReadsOn l o.2 := by
  cases h with
  | skip ht => exact readsOn_consume ht
  | add kind literal ht => exact (readsOn_consume ht).trans (readsOn_push _ _ _)
  | fail f ht => exact readsOn_consume ht

/-- What starting a lexeme keeps, and reading on, is kept by reading the whole source. -/
theorem readAll_induction {P : Lexer → Prop} (hb : ∀ l, P l → P l.begin)
    (hr : ∀ l l', ReadsOn l l' → P l → P l') (l : Lexer) (h : P l) : P l.readAll.2 := by
  have hn : ∀ l, P l → P l.begin.scanToken.2 := fun l h => hr _ _ (reads_scanToken _).readsOn (hb l h)
  fun_induction readAll l with
  | case1 => exact h
  | case2 l _ next _ ih => exact ih (hn l h)
  | case3 l _ next e _ _ => exact hr _ _ (readsOn_record e _) (hn l h)
  | case4 l _ next e _ _ ih => exact ih (hr _ _ (readsOn_record e _) (hn l h))
  | case5 l _ next _ _ _ => exact hn l h

theorem tokenize_induction {P : Lexer → Prop} (hb : ∀ l, P l → P l.begin)
    (hr : ∀ l l', ReadsOn l l' → P l → P l') (l : Lexer) (h : P l.rewind) : P l.tokenize.2 := by
  have ha := readAll_induction hb hr l.rewind h
  unfold tokenize
  split
  · next ended he =>
    rw [he] at ha
    refine hr ended _ ?_ ha
    exact readsOn_found _ ended.errors ended
  · next he =>
    rw [he] at ha
    exact ha

/-! ## What moving keeps -/

/-- The lexeme does not start behind the cursor, nor on a later line. -/
structure Ordered (l : Lexer) : Prop where
  start_le : l.start ≤ l.current
  one_le : 1 ≤ l.startLine
  startLine_le : l.startLine ≤ l.line

/-- The cursor is in the source, and with `n` line feeds more its line is that of the place. -/
structure Accounted (n : Nat) (l : Lexer) : Prop where
  current_le : l.current ≤ l.source.length
  line_add : l.line + n = 1 + Text.lineFeeds (l.source.take l.current)

theorem ordered_of_source (source : Text) : Ordered { source } :=
  ⟨Nat.le_refl _, Nat.le_refl _, Nat.le_refl _⟩

theorem accounted_of_source (source : Text) : Accounted 0 { source } :=
  ⟨Nat.zero_le _, rfl⟩

theorem Ordered.begin (h : Ordered l) : Ordered l.begin :=
  ⟨Nat.le_refl _, Nat.le_trans h.one_le h.startLine_le, Nat.le_refl _⟩

theorem Ordered.readsOn (h : Ordered l) (hr : ReadsOn l l') : Ordered l' := by
  obtain ⟨-, hs, hsl, t, -, hc, hl⟩ := hr
  obtain ⟨h₁, h₂, h₃⟩ := h
  constructor <;> omega

theorem Accounted.begin {n : Nat} (h : Accounted n l) : Accounted n l.begin :=
  ⟨h.current_le, h.line_add⟩

/-- What the cursor has passed grows by what is passed next. -/
theorem take_add_of_isPrefix {m : Nat} (h : t <+: l.source.drop m) :
    l.source.take (m + t.length) = l.source.take m ++ t := by
  obtain ⟨rest, hr⟩ := h
  rw [List.take_add, ← hr, List.take_left]

theorem length_le_of_isPrefix {m : Nat} (hm : m ≤ l.source.length) (h : t <+: l.source.drop m) :
    m + t.length ≤ l.source.length := by
  have hl := h.length_le
  rw [List.length_drop] at hl
  omega

theorem Accounted.readsOn {n : Nat} (h : Accounted n l) (hr : ReadsOn l l') : Accounted n l' := by
  obtain ⟨hs, -, -, t, hp, hc, hl⟩ := hr
  obtain ⟨h₁, h₂⟩ := h
  refine ⟨?_, ?_⟩
  · rw [hs, hc]
    exact length_le_of_isPrefix h₁ hp
  · rw [hs, hc, hl, take_add_of_isPrefix hp, Text.lineFeeds_append]
    omega

/-- A line feed that is passed without being counted is one more to account for. -/
theorem Accounted.skip {n : Nat} {c : Char} {rest : Text} (h : Accounted n l)
    (hu : l.unread = c :: rest) :
    Accounted (n + Text.lineFeeds [c]) { l with current := l.current + 1 } := by
  have hp : [c] <+: l.source.drop l.current := ⟨rest, hu.symm⟩
  obtain ⟨h₁, h₂⟩ := h
  refine ⟨length_le_of_isPrefix h₁ hp, ?_⟩
  have ht := take_add_of_isPrefix hp
  rw [List.length_singleton] at ht
  simp only [ht, Text.lineFeeds_append]
  omega

end Lexer

namespace Session

/-! ## One step -/

/-- The step takes a line feed by itself. -/
def TakesLineFeed (s : Session) (x : Step) : Prop :=
  s.lexer.unread.head? = some '\n' ∧ (x = .advance ∨ x = .accept ['\n'])

instance (s : Session) (x : Step) : Decidable (s.TakesLineFeed x) :=
  inferInstanceAs (Decidable (_ ∧ _))

/-- What steps do to the lexer: besides the readers there are those that go back to the beginning,
put in another source, start a lexeme, or take a single character. -/
inductive Moves (s : Session) : Step → Lexer → Prop
  | tokenize : Moves s .tokenize s.lexer.tokenize.2
  | setSource (source : Text) : Moves s (.setSource source) { s.lexer with source }
  | begin : Moves s .begin s.lexer.begin
  | take {x : Step} {c : Char} {rest : Text} : s.lexer.unread = c :: rest →
      x = .advance ∨ x = .accept [c] → Moves s x { s.lexer with current := s.lexer.current + 1 }
  | readOn {x : Step} {l : Lexer} : x ≠ .tokenize → ¬ s.TakesLineFeed x →
      Lexer.ReadsOn s.lexer l → Moves s x l

theorem moves_advance (s : Session) : s.Moves .advance s.lexer.advance.2 := by
  unfold Lexer.advance
  split
  · next h =>
    exact .readOn (by simp) (by simp [TakesLineFeed, h]) (.refl _)
  · next h => exact .take h (.inl rfl)

theorem moves_accept (s : Session) (expected : Text) :
    s.Moves (.accept expected) (s.lexer.accept expected).2 := by
  unfold Lexer.accept
  split
  · next c rest h =>
    split
    · next he => exact .take h (.inr (by rw [he]))
    · next he =>
      refine .readOn (by simp) ?_ (.refl _)
      rintro ⟨hc, hx⟩
      obtain rfl : c = '\n' := by simpa [h] using hc
      simp [he] at hx
  · next h => exact .readOn (by simp) (by simp [TakesLineFeed, h]) (.refl _)

/-- The steps that read on in the lexeme or leave the cursor alone. -/
def Step.readsOn : Step → Bool
  | .tokenize | .setSource _ | .begin | .advance | .accept _ => false
  | _ => true

theorem readsOn_update {s : Session} {l : Lexer} (h : s.lexer.ReadsOn l) :
    s.lexer.ReadsOn (s.update l).lexer := by
  rwa [lexer_update]

theorem moves_update {s : Session} {x : Step} {l : Lexer} (h : s.Moves x l) :
    s.Moves x (s.update l).lexer := by
  rwa [lexer_update]

theorem readsOn_step (s : Session) {x : Step} (h : x.readsOn = true) :
    s.lexer.ReadsOn (s.step x).2.lexer := by
  cases x with
  | tokenize | setSource | begin | advance | accept => cases h
  | returned i | clearReturned i | addToken kind literal =>
    simp only [step]
    split <;> exact Lexer.readsOn_found _ s.lexer.errors s.lexer
  | scanToken => exact readsOn_update s.lexer.reads_scanToken.readsOn
  | slash => exact readsOn_update s.lexer.reads_slash.readsOn
  | blockComment => exact readsOn_update s.lexer.reads_blockComment.readsOn
  | string => exact readsOn_update s.lexer.reads_string.readsOn
  | number => exact readsOn_update s.lexer.reads_number.readsOn
  | identifier => exact readsOn_update s.lexer.reads_identifier.readsOn
  | hasErrors | errors | peek | peekNext | isAtEnd => exact .refl _

theorem moves_step (s : Session) (x : Step) : s.Moves x (s.step x).2.lexer := by
  cases hx : x.readsOn with
  | true =>
    refine .readOn ?_ ?_ (s.readsOn_step hx)
    · rintro rfl
      cases hx
    · rintro ⟨-, rfl | rfl⟩ <;> cases hx
  | false =>
    cases x with
    | tokenize =>
      obtain ⟨ended, ht, hl, -⟩ := s.step_tokenize
      have hm := Moves.tokenize (s := s)
      rw [ht, lexer_handOut, lexer_update]
      rwa [hl] at hm
    | setSource source => exact .setSource source
    | begin => exact moves_update .begin
    | advance => exact moves_update s.moves_advance
    | accept expected => exact moves_update (s.moves_accept expected)
    | _ => cases hx

/-! ## Many steps -/

/-- The line feeds left uncounted after a step, of `n` before it. Tokenizing counts anew. -/
def uncountedAfter (s : Session) (n : Nat) (x : Step) : Nat :=
  if x = .tokenize then 0 else if s.TakesLineFeed x then n + 1 else n

/-- The line feeds left uncounted after some steps. -/
def uncounted (s : Session) (n : Nat) : List Step → Nat
  | [] => n
  | x :: xs => (s.step x).2.uncounted (s.uncountedAfter n x) xs

theorem ordered_step {s : Session} (x : Step) (h : s.lexer.Ordered) :
    (s.step x).2.lexer.Ordered := by
  have hm := s.moves_step x
  generalize (s.step x).2.lexer = l at hm
  cases hm with
  | tokenize =>
    exact Lexer.tokenize_induction (fun _ h => h.begin) (fun _ _ hr h => h.readsOn hr) _
      (Lexer.ordered_of_source _)
  | setSource source => exact ⟨h.start_le, h.one_le, h.startLine_le⟩
  | begin => exact h.begin
  | take => exact ⟨Nat.le_succ_of_le h.start_le, h.one_le, h.startLine_le⟩
  | readOn _ _ hr => exact h.readsOn hr

theorem accounted_step {s : Session} {x : Step} {n : Nat} (hx : ∀ t, x ≠ .setSource t)
    (h : s.lexer.Accounted n) : (s.step x).2.lexer.Accounted (s.uncountedAfter n x) := by
  have hm := s.moves_step x
  generalize (s.step x).2.lexer = l at hm
  cases hm with
  | tokenize =>
    rw [uncountedAfter, if_pos rfl]
    exact Lexer.tokenize_induction (fun _ h => h.begin) (fun _ _ hr h => h.readsOn hr) _
      (Lexer.accounted_of_source _)
  | setSource source => exact absurd rfl (hx source)
  | begin =>
    rw [uncountedAfter, if_neg (by simp), if_neg (by simp [TakesLineFeed])]
    exact h.begin
  | @take _ c rest hu hc =>
    have hn : s.uncountedAfter n x = n + Text.lineFeeds [c] := by
      by_cases hf : c = '\n'
      · subst hf
        have ht : s.TakesLineFeed x := ⟨by simp [hu], hc⟩
        rw [uncountedAfter, if_neg (by rcases hc with rfl | rfl <;> simp), if_pos ht]
        rfl
      · have ht : ¬ s.TakesLineFeed x := fun ht => hf (by simpa [hu] using ht.1)
        rw [uncountedAfter, if_neg (by rcases hc with rfl | rfl <;> simp), if_neg ht,
          Text.lineFeeds_singleton hf]
        rfl
    rw [hn]
    exact h.skip hu
  | readOn ht hf hr =>
    rw [uncountedAfter, if_neg ht, if_neg hf]
    exact h.readsOn hr

theorem ordered_run {s : Session} (h : s.lexer.Ordered) (steps : List Step) :
    (s.run steps).lexer.Ordered := by
  induction steps generalizing s with
  | nil => exact h
  | cons x xs ih => exact ih (ordered_step x h)

theorem accounted_run {s : Session} {steps : List Step} {n : Nat}
    (hs : ∀ t, .setSource t ∉ steps) (h : s.lexer.Accounted n) :
    (s.run steps).lexer.Accounted (s.uncounted n steps) := by
  induction steps generalizing s n with
  | nil => exact h
  | cons x xs ih =>
    have hx : ∀ t, x ≠ .setSource t := fun t ht => hs t (by simp [ht])
    exact ih (fun t ht => hs t (List.mem_cons_of_mem x ht)) (accounted_step hx h)

theorem lastSource_eq_self {source : Text} {steps : List Step}
    (hs : ∀ t, .setSource t ∉ steps) : lastSource source steps = source := by
  induction steps with
  | nil => rfl
  | cons x xs ih =>
    have hx : x.sourceAfter source = source := by
      cases x with
      | setSource t => exact absurd List.mem_cons_self (hs t)
      | _ => rfl
    rw [lastSource, List.foldl_cons, hx]
    exact ih fun t ht => hs t (List.mem_cons_of_mem x ht)

/-- A list with a first element is split at that element, or further behind. -/
theorem forall_split_cons {α : Type} {a : α} {l : List α} {P : List α → α → List α → Prop} :
    (∀ before b after, a :: l = before ++ b :: after → P before b after) ↔
      P [] a l ∧ ∀ before b after, l = before ++ b :: after → P (a :: before) b after := by
  constructor
  · intro h
    exact ⟨h [] a l rfl, fun before b after he => h (a :: before) b after (by rw [he]; rfl)⟩
  · rintro ⟨h, hl⟩ before b after he
    cases before with
    | nil =>
      obtain ⟨rfl, rfl⟩ := List.cons.inj he
      exact h
    | cons c before =>
      obtain ⟨rfl, ht⟩ := List.cons.inj he
      exact hl before b after ht

theorem uncountedAfter_eq_zero_iff {s : Session} {n : Nat} {x : Step} :
    s.uncountedAfter n x = 0 ↔ (n = 0 ∨ .tokenize = x) ∧ ¬ s.TakesLineFeed x := by
  unfold uncountedAfter
  split
  · next ht =>
    subst ht
    simp [TakesLineFeed]
  · next ht =>
    split
    · next hf => simp [hf]
    · next hf => simp [hf, Ne.symm ht]

/-- Nothing is left uncounted exactly if no line feed was taken by itself after the last
tokenizing. -/
theorem uncounted_eq_zero_iff {s : Session} {n : Nat} {steps : List Step} :
    s.uncounted n steps = 0 ↔ (n = 0 ∨ .tokenize ∈ steps) ∧
      ∀ before x after, steps = before ++ x :: after → .tokenize ∉ after →
        ¬ (s.run before).TakesLineFeed x := by
  induction steps generalizing s n with
  | nil => simp [uncounted]
  | cons x xs ih =>
    rw [uncounted, ih, forall_split_cons, List.mem_cons, ← and_assoc, ← or_assoc]
    refine and_congr_left' ?_
    by_cases ht : .tokenize ∈ xs
    · simp [ht]
    · simpa [ht, run] using uncountedAfter_eq_zero_iff

/-- Whatever is done to a session, its lexeme does not start behind the cursor, nor on a later line.
As long as the source is not replaced the cursor stays in it, and the line never runs ahead of the
line feeds that the cursor has passed; it is behind them exactly if, since the beginning or the last
tokenizing, a line feed has been taken by itself. -/
theorem cursor_after_any_steps (source : Text) (steps : List Step) :
    let l := ((ofSource source).run steps).lexer
    (l.start ≤ l.current ∧ 1 ≤ l.startLine ∧ l.startLine ≤ l.line) ∧
    ((∀ t, .setSource t ∉ steps) →
      l.current ≤ source.length ∧
      l.line ≤ 1 + Text.lineFeeds (source.take l.current) ∧
      (l.line = 1 + Text.lineFeeds (source.take l.current) ↔
        ∀ before x after, steps = before ++ x :: after → .tokenize ∉ after →
          ¬ ((ofSource source).run before).TakesLineFeed x)) := by
  intro l
  have ho : l.Ordered := ordered_run (s := ofSource source) (Lexer.ordered_of_source source) steps
  refine ⟨⟨ho.start_le, ho.one_le, ho.startLine_le⟩, fun hs => ?_⟩
  have hl : l.source = source := (source_run _ steps).trans (lastSource_eq_self hs)
  have ha : l.Accounted ((ofSource source).uncounted 0 steps) :=
    accounted_run hs (Lexer.accounted_of_source source)
  obtain ⟨hc, hn⟩ := ha
  rw [hl] at hc hn
  have hz : (ofSource source).uncounted 0 steps = 0 ↔ _ := uncounted_eq_zero_iff
  refine ⟨hc, by omega, Iff.trans ?_ (hz.trans (and_iff_right (.inl rfl)))⟩
  omega

/-- A line feed taken by itself after a string over two lines: the cursor is at the end of the source
and its line is one short. -/
theorem cursor_after_advance_over_lineFeed :
    let source := ['\x22', '\n', '\x22', '\n']
    let steps := [.begin, .scanToken, .advance]
    let l := ((ofSource source).run steps).lexer
    (∀ t, .setSource t ∉ steps) ∧ l.current = 4 ∧ l.line = 2 ∧
      l.current ≤ source.length ∧ l.line ≤ 1 + Text.lineFeeds (source.take l.current) := by
  intro source steps l
  have hs : ∀ t, .setSource t ∉ steps := by simp [steps]
  obtain ⟨hc, hl, -⟩ := (cursor_after_any_steps source steps).2 hs
  exact ⟨hs, by decide +kernel, by decide +kernel, hc, hl⟩

end Session

end ScriptLexer
