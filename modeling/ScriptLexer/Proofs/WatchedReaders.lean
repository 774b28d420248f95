import ScriptLexer.Proofs.Watching

/-! # Watched readers follow the lexer

Read character by character, with every act watched, a piece comes to what the lexer makes of it: the
same result, the same moves, the same token. This holds wherever the cursor stands, with one
exception. A number has its value only if the lexeme it is read into began where the number did, so
that reader is followed only from the beginning of a piece.

Behind the end of the source NUL is seen, which may also be a character of the source. No test that
keeps a loop going is passed by NUL, except those that ask for the end as well. -/

namespace ScriptLexer.Work

open Lexer (Outcome)

variable {α : Type} {l l₁ : Lexer} {c : Char} {rest : Text}

/-! ## Loops of the readers -/

theorem unread_consume_takeWhile (l : Lexer) (p : Char → Bool) :
    (l.consume (l.unread.takeWhile p)).unread = l.unread.dropWhile p :=
  Lexer.unread_consume List.takeWhile_append_dropWhile.symm

theorem does_skipWhile {p : Char → Bool} (hz : p '\x00' = false) (hn : p '\n' = false) (l : Lexer) :
    Does (skipWhile p) l (.ok ()) (l.consume (l.unread.takeWhile p)) [] := by
  refine does_loop_takeWhile (fun l c rest h hc => ?_) (fun l hs => ?_) l
  · have hne : c ≠ '\n' := by
      rintro rfl
      rw [hn] at hc
      cases hc
    refine does_peek.bind ?_
    rw [Lexer.peek_of_cons h, if_pos hc]
    exact (does_advance_consume h hne).bind (does_pure none)
  · have hf : p l.peek = false := by
      cases h : l.unread with
      | nil => rwa [Lexer.peek, h]
      | cons c rest =>
        rw [h] at hs
        rw [Lexer.peek_of_cons h]
        exact Text.stopsRun_cons.1 hs
    refine does_peek.bind ?_
    rw [hf]
    exact does_pure _

theorem does_lineComment (l : Lexer) :
    Does lineComment l (.ok ()) (l.consume (l.unread.takeWhile (· ≠ '\n'))) [] := by
  refine does_loop_takeWhile (fun l c rest h hc => ?_) (fun l hs => ?_) l
  · have hne : c ≠ '\n' := by simpa using hc
    refine does_peek.bind ?_
    rw [Lexer.peek_of_cons h, if_neg hne]
    exact (does_atEnd_of_cons h).bind ((does_advance_consume h hne).bind (does_pure none))
  · refine does_peek.bind ?_
    cases h : l.unread with
    | nil =>
      have hz : l.peek ≠ '\n' := by
        rw [Lexer.peek, h]
        decide
      rw [if_neg hz]
      exact (does_atEnd_of_nil h).bind (does_pure _)
    | cons c rest =>
      rw [h, Text.stopsRun_cons] at hs
      rw [Lexer.peek_of_cons h, if_pos (by simpa using hs)]
      exact does_pure _

theorem does_stringLoop (l : Lexer) :
    Does (loop stringPass) l (.ok ()) (l.consume (l.unread.takeWhile (· ≠ '\x22'))) [] := by
  refine does_loop_takeWhile (fun l c rest h hc => ?_) (fun l hs => ?_) l
  · have hne : c ≠ '\x22' := by simpa using hc
    have hu : Lexer.unread { l with line := l.line + Text.lineFeeds [c] } = c :: rest := h
    refine (does_atEnd_of_cons h).bind (does_peek.bind ?_)
    rw [Lexer.peek_of_cons h, if_neg hne]
    refine does_peek.bind ((does_countLine _).bind ?_)
    rw [Lexer.peek_of_cons h]
    exact (does_advance hu).bind (does_pure none)
  · cases h : l.unread with
    | nil => exact (does_atEnd_of_nil h).bind (does_pure _)
    | cons c rest =>
      rw [h, Text.stopsRun_cons] at hs
      refine (does_atEnd_of_cons h).bind (does_peek.bind ?_)
      rw [Lexer.peek_of_cons h, if_pos (by simpa using hs)]
      exact does_pure _

/-! ### Block comments -/

/-- What a block comment takes behind its opening. -/
def commentTail (t : Text) : Text :=
  match splitComment t with
  | some (body, _) => body ++ ['*', '/']
  | none => t

theorem commentTail_cons (h : ¬ (c = '*' ∧ rest.head? = some '/')) :
    commentTail (c :: rest) = c :: commentTail rest := by
  unfold commentTail
  rw [splitComment_cons h]
  cases splitComment rest <;> rfl

theorem isSome_splitComment_cons (h : ¬ (c = '*' ∧ rest.head? = some '/')) :
    (splitComment (c :: rest)).isSome = (splitComment rest).isSome := by
  rw [splitComment_cons h, Option.isSome_map]

theorem does_commentPass_closing (h : l.unread = '*' :: '/' :: rest) :
    Does commentPass l (.ok (some true)) (l.consume ['*', '/']) [] := by
  have hn : l.peekNext = '/' := (Lexer.peekNext_eq_iff h (by decide)).2 rfl
  have hu := Lexer.unread_consume_singleton h
  have h₁ := does_advance_consume h (by decide)
  have h₂ := does_advance_consume hu (by decide)
  refine (does_atEnd_of_cons h).bind ((does_nextTwo _ _).bind ?_)
  rw [Lexer.peek_of_cons h, hn]
  exact h₁.bind (h₂.bind (does_pure (some true)))

theorem does_commentPass_next (h : l.unread = c :: rest)
    (hc : ¬ (c = '*' ∧ rest.head? = some '/')) :
    Does commentPass l (.ok none) (l.consume [c]) [] := by
  have hx : (decide (l.peek = '*') && decide (l.peekNext = '/')) = false := by
    rw [Bool.eq_false_iff, Ne, Bool.and_eq_true, decide_eq_true_iff, decide_eq_true_iff,
      Lexer.peek_of_cons h, Lexer.peekNext_eq_iff h (by decide)]
    exact hc
  refine (does_atEnd_of_cons h).bind ((does_nextTwo _ _).bind ?_)
  rw [hx]
  exact (does_advance h).bind ((does_countLine c).bind (does_pure none))

theorem does_commentLoop (l : Lexer) : Does (loop commentPass) l
    (.ok (splitComment l.unread).isSome) (l.consume (commentTail l.unread)) [] := by
  refine does_loop_of_steps (f := fun t => (splitComment t).isSome) (g := commentTail)
    (fun l => ?_) l
  cases h : l.unread with
  | nil => exact .inl ((does_atEnd_of_nil h).bind (does_pure _))
  | cons c rest =>
    by_cases hc : c = '*' ∧ rest.head? = some '/'
    · obtain ⟨rfl, hr⟩ := hc
      obtain ⟨after, rfl⟩ := List.head?_eq_some_iff.1 hr
      exact .inl (does_commentPass_closing h)
    · exact .inr ⟨c, rest, rfl, isSome_splitComment_cons hc, commentTail_cons hc,
        does_commentPass_next h hc⟩

/-! ### Fractions -/

theorem startsFraction_iff :
    StartsFraction l.unread ↔ (decide (l.peek = '.') && isDigit l.peekNext) = true := by
  rw [Bool.and_eq_true, decide_eq_true_iff]
  constructor
  · rintro ⟨d, rest, h, hd⟩
    have hn : l.peekNext = d := by
      rw [Lexer.peekNext, h]
      rfl
    exact ⟨Lexer.peek_of_cons h, hn.symm ▸ hd⟩
  · rintro ⟨hp, hd⟩
    unfold Lexer.peek at hp
    unfold Lexer.peekNext at hd
    -- Where there is no character, NUL is seen, which is neither a point nor a digit.
    cases h : l.unread with
    | nil => simp [h] at hp
    | cons b rest =>
      cases rest with
      | nil => simp [h, isDigit] at hd
      | cons d rest =>
        simp only [h, List.headD_cons, List.drop_succ_cons, List.drop_zero] at hp hd
        exact ⟨d, rest, by rw [hp], hd⟩

/-- What a fraction takes: nothing, if there is none. -/
def fractionTail (t : Text) : Text :=
  match splitFraction t with
  | some (digits, _) => '.' :: digits
  | none => []

theorem does_fraction (l : Lexer) :
    Does fraction l (.ok ()) (l.consume (fractionTail l.unread)) [] := by
  refine (does_nextTwo _ _).bind ?_
  by_cases hs : StartsFraction l.unread
  · rw [startsFraction_iff.1 hs, if_pos rfl]
    obtain ⟨d, rest, h, hd⟩ := hs
    have hu := Lexer.unread_consume_singleton h
    have ht : fractionTail l.unread = '.' :: (d :: rest).takeWhile isDigit := by
      simp [fractionTail, splitFraction, h, hd]
    have hw := does_skipWhile (p := isDigit) (by decide) (by decide) (l.consume ['.'])
    rw [hu, Lexer.consume_singleton_consume, ← ht] at hw
    exact (does_advance_consume h (by decide)).bind hw
  · have ht : fractionTail l.unread = [] := by
      rw [fractionTail, splitFraction_eq_none_iff.2 hs]
    rw [Bool.eq_false_iff.2 (mt startsFraction_iff.2 hs), if_neg Bool.false_ne_true, ht]
    exact does_pure ()

/-! ## Readers -/

/-- What is raised by a reader that comes to this. -/
def raised (o : Outcome Unit) : List Act :=
  match o.1 with
  | .error (.lexical e) => [.raise e]
  | _ => []

/-- From `l` on, the work comes to what a reader of the lexer comes to. -/
def Follows (w : Work Unit) (l : Lexer) (o : Outcome Unit) : Prop :=
  Does w l (o.1.mapError .failure) o.2 (raised o)

theorem Does.follows {v : Work α} {f : α → Work Unit} {a : α} {o : Outcome Unit}
    (h : Does v l (.ok a) l₁ []) (h' : Follows (f a) l₁ o) : Follows (v >>= f) l o :=
  h.bind h'

theorem follows_push (kind : TokenKind) (literal : Option Literal) (l : Lexer) :
    Follows (change (Lexer.push kind literal)) l (.ok (), l.push kind literal) :=
  does_change rfl

theorem follows_raise (e : LexError) (l : Lexer) :
    Follows (raise e) l (.error (.lexical e), l) := by
  have hr : Act.InOrder l.source (.raise e) := trivial
  exact (does_note hr).bind (does_throw _)

/-- A single character always has an error. -/
theorem follows_unexpected (h : c ∈ l.source) :
    Follows (unexpected [c]) l (.error (.lexical (LexError.unexpectedCharacter c l.line)), l) := by
  have hc : Act.InOrder l.source (.unexpected [c]) := ⟨c, h, rfl⟩
  refine (does_note hc).follows (does_lexer.follows ?_)
  rw [LexError.unexpectedText_singleton]
  exact follows_raise _ _

theorem follows_blockComment (l : Lexer) : Follows blockComment l l.blockComment := by
  refine (does_commentLoop l).follows ?_
  unfold Lexer.blockComment commentTail
  cases splitComment l.unread with
  | some found => exact does_pure ()
  | none => exact does_lexer.follows (follows_raise _ _)

theorem follows_slash (l : Lexer) : Follows slash l l.slash := by
  unfold Lexer.slash
  split
  · next rest h =>
    have hc := does_lineComment (l.consume ['/'])
    rw [Lexer.unread_consume_singleton h, Lexer.consume_singleton_consume] at hc
    exact (does_accept h (by decide)).follows hc
  · next rest h =>
    have hn : ∀ r, l.unread = '/' :: r → False := by simp [h]
    exact (does_accept_not hn).follows
      ((does_accept h (by decide)).follows (follows_blockComment _))
  · next hl hb =>
    exact (does_accept_not hl).follows ((does_accept_not hb).follows (follows_push _ _ _))

theorem follows_string (l : Lexer) : Follows string l l.string := by
  refine (does_stringLoop l).follows (does_atEnd.follows ?_)
  have hu := unread_consume_takeWhile l (· ≠ '\x22')
  have ht := List.takeWhile_append_dropWhile (p := (· ≠ '\x22')) (l := l.unread)
  unfold Lexer.string splitString
  rw [hu]
  cases hd : l.unread.dropWhile (· ≠ '\x22') with
  | nil =>
    rw [hd, List.append_nil] at ht
    rw [ht]
    exact does_lexer.follows (follows_raise _ _)
  | cons c rest =>
    have hs : Text.StopsRun (· ≠ '\x22') (c :: rest) := hd ▸ Text.stopsRun_dropWhile _ _
    obtain rfl : c = '\x22' := by simpa [Text.stopsRun_cons] using hs
    have ha := does_advance_consume (hu.trans hd) (by decide)
    rw [Lexer.consume_consume] at ha
    exact ha.follows (does_change rfl)

theorem follows_number (h : IsNumber (l.consume (Lexer.numberTail l.unread)).lexeme) :
    Follows number l l.number := by
  have hd := does_skipWhile (p := isDigit) (by decide) (by decide) l
  have hf := does_fraction (l.consume (l.unread.takeWhile isDigit))
  rw [unread_consume_takeWhile, Lexer.consume_consume] at hf
  obtain ⟨v, hv⟩ := h.exists_ofText?
  refine hd.follows (hf.follows (does_lexer.follows ?_))
  unfold Lexer.number
  dsimp only
  rw [hv]
  exact (does_convert h hv).follows (does_change rfl)

theorem follows_identifier (l : Lexer) : Follows identifier l l.identifier :=
  (does_skipWhile (by decide) (by decide) l).follows (does_change rfl)

theorem follows_equalSuffixed (single double : Symbol) (l : Lexer) :
    Follows (equalSuffixed single double) l (.ok (), l.equalSuffixed single double) := by
  unfold Lexer.equalSuffixed
  split
  · next rest h => exact (does_accept h (by decide)).follows (follows_push _ _ _)
  · next h => exact (does_accept_not h).follows (follows_push _ _ _)

/-! ## Pieces -/

/-- The lexeme that is read on from a digit is a number. -/
theorem isNumber_lexeme (h : l.unread = c :: rest) (hc : isDigit c = true) :
    IsNumber ((l.begin.consume [c]).consume (Lexer.numberTail rest)).lexeme := by
  have hl : l.unread = c :: Lexer.numberTail rest ++ (Piece.readNumber c rest).2 := by
    rw [h, ← Lexer.readNumber_text_eq, Piece.readNumber_text]
  have hf := (Piece.readNumber_fits hc rest).wellFormed
  obtain ⟨whole, fraction, hp⟩ := Lexer.exists_readNumber_eq c rest
  rw [Lexer.consume_singleton_consume, Lexer.lexeme_begin_consume hl, ← Lexer.readNumber_text_eq]
  rw [hp] at hf ⊢
  exact isNumber_iff.2 ⟨whole, fraction, hf, rfl⟩

theorem follows_scanToken (h : l.unread = c :: rest) :
    Follows scanToken l.begin l.begin.scanToken := by
  have hb : l.begin.unread = c :: rest := h
  rw [Lexer.scanToken, hb]
  dsimp only
  unfold Lexer.readPiece
  by_cases hn : c = '\n'
  · -- Only here a line is counted behind the advance; the other readers count their own.
    subst hn
    exact (does_advance hb).follows (does_countLine '\n')
  · refine (does_advance_consume hb hn).follows ?_
    unfold readPiece
    cases hl : Lead.of c with
    | symbol s => exact follows_push _ _ _
    | equalSuffixed single double => exact follows_equalSuffixed _ _ _
    | slash => exact follows_slash _
    | blank =>
      have hz : countLine c = pure () := if_neg hn
      rw [hz]
      exact does_pure ()
    | quote => exact follows_string _
    | digit =>
      have hw := isNumber_lexeme h (Lead.of_eq_digit_iff.1 hl)
      rw [← Lexer.unread_begin_consume h] at hw
      exact follows_number hw
    | letter => exact follows_identifier _
    | stray =>
      have hm : c ∈ l.source := List.mem_of_mem_drop (h ▸ List.mem_cons_self)
      exact follows_unexpected hm

end ScriptLexer.Work
