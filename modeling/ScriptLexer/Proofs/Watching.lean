import ScriptLexer.Lexer.Watched
import ScriptLexer.Proofs.Lexemes
import ScriptLexer.Proofs.Tokenizing

/-! # Watching a lexer

What a piece of work comes to is said as a whole: its result, the lexer it leaves, and that every act
on the way is in order. That says three things at once which would be hard to take apart, since an act
is in order only because of where the cursor is then. Work put together of two parts comes to what its
parts come to, so the work of a reader is followed act by act, and only the loops take an induction,
on what is unread.

Of the acts themselves only errors and passes are kept in mind; what is read where is different in
every reader and matters to nobody once it is in order. -/

namespace ScriptLexer

/-! ## Acts -/

theorem IsNumber.exists_ofText? {w : Text} (h : IsNumber w) : ∃ v, Binary64.ofText? w = some v := by
  obtain ⟨whole, fraction, hp, rfl⟩ := isNumber_iff.1 h
  exact ⟨_, Binary64.ofText?_number hp⟩

namespace Act

/-- What must hold of an act for nothing to go wrong. -/
def InOrder (source : Text) : Act → Prop
  | read position => position < source.length
  | move position => position ≤ source.length
  | convert lexeme => IsNumber lexeme
  | unexpected found => ∃ c ∈ source, found = [c]
  | raise _ => True
  | pass position => position < source.length

def raised? : Act → Option LexError
  | raise e => some e
  | _ => none

def pass? : Act → Option Nat
  | pass position => some position
  | _ => none

def isMark (a : Act) : Bool :=
  a.raised?.isSome || a.pass?.isSome

end Act

/-! ## The cursor -/

namespace Lexer

variable {l : Lexer} {c : Char} {rest : Text}

theorem getElem?_of_unread (h : l.unread = c :: rest) : l.source[l.current]? = some c := by
  rw [← List.head?_drop]
  exact congrArg List.head? h

theorem lt_length_of_unread (h : l.unread = c :: rest) : l.current < l.source.length :=
  (List.getElem?_eq_some_iff.1 (getElem?_of_unread h)).1

theorem isEmpty_unread (l : Lexer) : l.unread.isEmpty = decide (l.source.length ≤ l.current) := by
  rw [Bool.eq_iff_iff, List.isEmpty_iff, decide_eq_true_iff]
  exact List.drop_eq_nil_iff

theorem peek_of_cons (h : l.unread = c :: rest) : l.peek = c := by
  rw [peek, h]
  rfl

theorem peekNext_eq_iff (h : l.unread = c :: rest) {d : Char} (hd : d ≠ '\x00') :
    l.peekNext = d ↔ rest.head? = some d := by
  rw [peekNext, h]
  cases rest with
  | nil => simp [Ne.symm hd]
  | cons b rest => simp

theorem unread_consume_singleton (h : l.unread = c :: rest) : (l.consume [c]).unread = rest :=
  unread_consume (t := rest) h

theorem consume_singleton_consume (l : Lexer) (c : Char) (t : Text) :
    (l.consume [c]).consume t = l.consume (c :: t) :=
  consume_consume l [c] t

/-- Only over a line feed it makes a difference whether lines are counted. -/
theorem consume_singleton (hc : c ≠ '\n') : l.consume [c] = { l with current := l.current + 1 } := by
  rw [consume, Text.lineFeeds_singleton hc]
  rfl

end Lexer

/-! ## What work comes to -/

namespace Work

variable {α β γ : Type} {l l₁ l₂ : Lexer} {ms ns : List Act} {w : Work α}

/-- From `l` on, the work comes to `r` and leaves the lexer `l'`. All its acts are in order, and
`marks` are the errors it raises and the passes it begins. -/
structure Does (w : Work α) (l : Lexer) (r : Except Trouble α) (l' : Lexer) (marks : List Act) :
    Prop where
  source : l'.source = l.source
  acts : ∃ acts, (∀ before, w ⟨l, before⟩ = (r, ⟨l', before ++ acts⟩)) ∧
    (∀ a ∈ acts, a.InOrder l.source) ∧ acts.filter Act.isMark = marks

/-- Work that notes nothing. -/
theorem does_of_silent {r : Except Trouble α} (hs : l₁.source = l.source)
    (hw : ∀ before, w ⟨l, before⟩ = (r, ⟨l₁, before⟩)) : Does w l r l₁ [] :=
  ⟨hs, [], fun before => by rw [hw, List.append_nil], by simp, rfl⟩

/-- Work that does what `w` does. -/
theorem Does.like {x : Work β} {q : Except Trouble α} {r : Except Trouble β}
    (h : Does w l q l₁ ms) (hx : ∀ s s₁, w s = (q, s₁) → x s = (r, s₁)) : Does x l r l₁ ms := by
  obtain ⟨hs, acts, hw, ha, hm⟩ := h
  exact ⟨hs, acts, fun before => hx _ _ (hw before), ha, hm⟩

/-- Work that does what `w` does and then what `v` does. -/
theorem Does.likeBoth {v : Work β} {x : Work γ} {q : Except Trouble α} {q' : Except Trouble β}
    {r : Except Trouble γ} (h : Does w l q l₁ ms) (h' : Does v l₁ q' l₂ ns)
    (hx : ∀ s s₁ s₂, w s = (q, s₁) → v s₁ = (q', s₂) → x s = (r, s₂)) :
    Does x l r l₂ (ms ++ ns) := by
  obtain ⟨hs, acts, hw, ha, hm⟩ := h
  obtain ⟨hs', acts', hv, ha', hm'⟩ := h'
  refine ⟨hs'.trans hs, acts ++ acts', fun before => ?_, ?_, ?_⟩
  · rw [← List.append_assoc]
    exact hx _ _ _ (hw before) (hv (before ++ acts))
  · rw [hs] at ha'
    exact List.forall_mem_append.2 ⟨ha, ha'⟩
  · rw [List.filter_append, hm, hm']

/-! ## Work put together -/

theorem bind_apply (w : Work α) (f : α → Work β) (s : Watched) : (w >>= f) s =
    match w s with
    | (.ok a, s') => f a s'
    | (.error t, s') => (.error t, s') := by
  show (ExceptT.bindCont f (w s).1 : StateM Watched _) (w s).2 = _
  rcases w s with ⟨_ | _, _⟩ <;> rfl

theorem tryCatch_apply (w : Work α) (g : Trouble → Work α) (s : Watched) : tryCatch w g s =
    match w s with
    | (.ok a, s') => (.ok a, s')
    | (.error t, s') => g t s' := by
  show ExceptT.tryCatch w g s = _
  unfold ExceptT.tryCatch ExceptT.mk
  show StateT.bind w _ s = _
  unfold StateT.bind
  show (match w s with | (a, s') => _) = _
  rcases w s with ⟨_ | _, _⟩ <;> rfl

section

variable {f : α → Work β} {g : Trouble → Work α} {a : α} {t : Trouble}

theorem Does.bind {r : Except Trouble β} (h : Does w l (.ok a) l₁ ms)
    (h' : Does (f a) l₁ r l₂ ns) : Does (w >>= f) l r l₂ (ms ++ ns) :=
  h.likeBoth h' fun _ _ _ hw hf => by rw [bind_apply, hw]; exact hf

theorem Does.bind_error (h : Does w l (.error t) l₁ ms) : Does (w >>= f) l (.error t) l₁ ms :=
  h.like fun _ _ hw => by rw [bind_apply, hw]

theorem Does.tryCatch_ok (h : Does w l (.ok a) l₁ ms) : Does (tryCatch w g) l (.ok a) l₁ ms :=
  h.like fun _ _ hw => by rw [tryCatch_apply, hw]

theorem Does.tryCatch_error {r : Except Trouble α} (h : Does w l (.error t) l₁ ms)
    (h' : Does (g t) l₁ r l₂ ns) : Does (tryCatch w g) l r l₂ (ms ++ ns) :=
  h.likeBoth h' fun _ _ _ hw hg => by rw [tryCatch_apply, hw]; exact hg

end

/-! ## Single acts -/

theorem does_pure (a : α) : Does (pure a : Work α) l (.ok a) l [] :=
  does_of_silent rfl fun _ => rfl

theorem does_throw (t : Trouble) : Does (throw t : Work α) l (.error t) l [] :=
  does_of_silent rfl fun _ => rfl

theorem does_lexer : Does lexer l (.ok l) l [] :=
  does_of_silent rfl fun _ => rfl

theorem does_change {f : Lexer → Lexer} (h : (f l).source = l.source) :
    Does (change f) l (.ok ()) (f l) [] :=
  does_of_silent h fun _ => rfl

theorem does_note {a : Act} (h : a.InOrder l.source) :
    Does (note a) l (.ok ()) l ([a].filter Act.isMark) :=
  ⟨rfl, [a], fun _ => rfl, by simpa using h, rfl⟩

variable {c : Char} {rest : Text}

theorem does_readAt {i : Nat} (h : l.source[i]? = some c) : Does (readAt i) l (.ok c) l [] := by
  have hi : Act.InOrder l.source (.read i) := (List.getElem?_eq_some_iff.1 h).1
  refine (does_note hi).bind (does_lexer.bind ?_)
  simp only [h]
  exact does_pure c

theorem does_moveOn (h : l.unread = c :: rest) :
    Does moveOn l (.ok ()) { l with current := l.current + 1 } [] := by
  have hm : Act.InOrder l.source (.move (l.current + 1)) := Lexer.lt_length_of_unread h
  exact does_lexer.bind ((does_note hm).bind (does_change rfl))

theorem does_countLine (c : Char) :
    Does (countLine c) l (.ok ()) { l with line := l.line + Text.lineFeeds [c] } [] := by
  unfold countLine
  split
  · next hc =>
    subst hc
    exact does_change rfl
  · next hc =>
    rw [Text.lineFeeds_singleton hc]
    exact does_pure ()

theorem does_convert {t : Text} {v : Binary64} (h : IsNumber t) (hv : Binary64.ofText? t = some v) :
    Does (convert t) l (.ok v) l [] := by
  have hc : Act.InOrder l.source (.convert t) := h
  refine (does_note hc).bind ?_
  rw [hv]
  exact does_pure v

theorem does_atEnd : Does atEnd l (.ok l.unread.isEmpty) l [] := by
  rw [Lexer.isEmpty_unread]
  exact does_lexer.bind (does_pure _)

theorem does_atEnd_of_nil (h : l.unread = []) : Does atEnd l (.ok true) l [] := by
  have he := does_atEnd (l := l)
  rwa [h] at he

theorem does_atEnd_of_cons (h : l.unread = c :: rest) : Does atEnd l (.ok false) l [] := by
  have he := does_atEnd (l := l)
  rwa [h] at he

/-- Looking at the next character reads it, if there is one. -/
theorem does_peek : Does peek l (.ok l.peek) l [] := by
  cases h : l.unread with
  | nil =>
    rw [Lexer.peek, h]
    exact (does_atEnd_of_nil h).bind (does_pure _)
  | cons c rest =>
    rw [Lexer.peek, h]
    exact (does_atEnd_of_cons h).bind
      (does_lexer.bind (does_readAt (Lexer.getElem?_of_unread h)))

theorem does_peekNext : Does peekNext l (.ok l.peekNext) l [] := by
  have hd : l.unread.drop 1 = l.source.drop (l.current + 1) := List.drop_drop
  refine does_lexer.bind ?_
  rw [Lexer.peekNext, hd]
  by_cases h : l.source.length ≤ l.current + 1
  · rw [if_pos h, List.drop_eq_nil_iff.2 h]
    exact does_pure _
  · rw [if_neg h]
    refine does_readAt ?_
    rw [List.getElem?_eq_getElem (by omega), List.drop_eq_getElem_cons (by omega)]
    rfl

theorem does_nextTwo (c : Char) (p : Char → Bool) :
    Does (nextTwo c p) l (.ok (l.peek = c && p l.peekNext)) l [] := by
  refine does_peek.bind ?_
  by_cases hc : l.peek = c
  · rw [if_pos hc, decide_eq_true hc, Bool.true_and]
    exact does_peekNext.bind (does_pure _)
  · rw [if_neg hc, decide_eq_false hc, Bool.false_and]
    exact does_pure _

theorem does_advance (h : l.unread = c :: rest) :
    Does advance l (.ok c) { l with current := l.current + 1 } [] :=
  does_lexer.bind
    ((does_readAt (Lexer.getElem?_of_unread h)).bind ((does_moveOn h).bind (does_pure c)))

theorem does_advance_consume (h : l.unread = c :: rest) (hc : c ≠ '\n') :
    Does advance l (.ok c) (l.consume [c]) [] := by
  rw [Lexer.consume_singleton hc]
  exact does_advance h

theorem does_accept (h : l.unread = c :: rest) (hc : c ≠ '\n') :
    Does (accept c) l (.ok true) (l.consume [c]) [] := by
  refine (does_atEnd_of_cons h).bind
    (does_lexer.bind ((does_readAt (Lexer.getElem?_of_unread h)).bind ?_))
  rw [if_pos rfl, Lexer.consume_singleton hc]
  exact (does_moveOn h).bind (does_pure true)

theorem does_accept_not (h : ∀ rest, l.unread = c :: rest → False) :
    Does (accept c) l (.ok false) l [] := by
  cases hu : l.unread with
  | nil => exact (does_atEnd_of_nil hu).bind (does_pure false)
  | cons d rest =>
    have hd : d ≠ c := by
      rintro rfl
      exact h rest hu
    refine (does_atEnd_of_cons hu).bind
      (does_lexer.bind ((does_readAt (Lexer.getElem?_of_unread hu)).bind ?_))
    rw [if_neg hd]
    exact does_pure false

/-! ## Loops -/

section

variable {pass : Work (Option γ)} {n : Nat} {r : Except Trouble γ}

theorem does_passes_next (h : Does pass l (.ok none) l₁ ms) (h' : Does (passes pass n) l₁ r l₂ ns) :
    Does (passes pass (n + 1)) l r l₂ (ms ++ ns) :=
  h.bind h'

theorem does_passes_last {a : γ} (h : Does pass l (.ok (some a)) l₁ ms) (n : Nat) :
    Does (passes pass (n + 1)) l (.ok a) l₁ ms := by
  rw [← List.append_nil ms]
  exact h.bind (does_pure a)

theorem does_loop (h : Does (passes pass (l.unread.length + 1)) l r l₁ ms) :
    Does (loop pass) l r l₁ ms := by
  rw [Lexer.unread, List.length_drop] at h
  exact does_lexer.bind h

/-- A loop ends in time if each of its passes takes a character or ends it. What is unread then says
what the loop comes to: `f` gives the result and `g` what is taken. -/
theorem does_loop_of_steps {f : Text → γ} {g : Text → Text}
    (h : ∀ l, Does pass l (.ok (some (f l.unread))) (l.consume (g l.unread)) [] ∨
      ∃ c rest, l.unread = c :: rest ∧ f (c :: rest) = f rest ∧
        g (c :: rest) = c :: g rest ∧ Does pass l (.ok none) (l.consume [c]) [])
    (l : Lexer) :
    Does (loop pass) l (.ok (f l.unread)) (l.consume (g l.unread)) [] := by
  refine does_loop ?_
  -- One pass is left over for each character, and one for the end.
  have hn : l.unread.length < l.unread.length + 1 := Nat.lt_succ_self _
  generalize l.unread.length + 1 = n at hn ⊢
  induction n generalizing l with
  | zero => cases hn
  | succ n ih =>
    rcases h l with hl | ⟨c, rest, hu, hr, ht, hp⟩
    · exact does_passes_last hl n
    · have hu' := Lexer.unread_consume_singleton hu
      have hn' : (l.consume [c]).unread.length < n := by
        rw [hu] at hn
        rw [hu']
        exact Nat.lt_of_succ_lt_succ hn
      have hi := ih (l.consume [c]) hn'
      rw [hu', Lexer.consume_singleton_consume] at hi
      rw [hu, hr, ht]
      exact does_passes_next hp hi

end

/-- Passes that take a character as long as it passes a test, and then end, take a whole run. -/
theorem does_loop_takeWhile {pass : Work (Option Unit)} {p : Char → Bool}
    (hp : ∀ l c rest, l.unread = c :: rest → p c = true → Does pass l (.ok none) (l.consume [c]) [])
    (hs : ∀ l, Text.StopsRun p l.unread → Does pass l (.ok (some ())) l []) (l : Lexer) :
    Does (loop pass) l (.ok ()) (l.consume (l.unread.takeWhile p)) [] := by
  refine does_loop_of_steps (f := fun _ => ()) (g := List.takeWhile p) (fun l => ?_) l
  cases h : l.unread with
  | nil => exact .inl (hs l (by rw [h]; exact Text.stopsRun_nil))
  | cons c rest =>
    by_cases hc : p c = true
    · exact .inr ⟨c, rest, rfl, rfl, List.takeWhile_cons_of_pos hc, hp l c rest h hc⟩
    · rw [List.takeWhile_cons_of_neg hc]
      exact .inl (hs l (by rw [h]; exact Text.stopsRun_cons.2 (by simpa using hc)))

end Work

end ScriptLexer
