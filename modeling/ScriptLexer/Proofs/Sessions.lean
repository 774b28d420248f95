import Mathlib.Data.List.Nodup
import ScriptLexer.Lexer.Session
import ScriptLexer.Proofs.Tokenizing

/-! # Sessions forget what was read and keep what was returned

Only setting a source changes the source of a session, so after any steps whatever tokenizing comes
to what the source alone gives. The lexer's list and the lists that were handed out are different
lists, and every step keeps them apart: tokenizing fills the lexer's list and hands out a new one,
clearing empties one that was handed out, and all other steps, failed ones included, write to the
lexer's list at most. So a returned list is as it was returned until it is cleared. -/

namespace ScriptLexer

/-! ## The source stays -/

namespace Lexer

theorem source_advance (l : Lexer) : l.advance.2.source = l.source := by
  unfold advance
  split <;> rfl

theorem source_accept (expected : Text) (l : Lexer) : (l.accept expected).2.source = l.source := by
  unfold accept
  split
  · split <;> rfl
  · rfl

theorem source_scanToken (l : Lexer) : l.scanToken.2.source = l.source := by
  cases hu : l.unread with
  | nil => rw [scanToken, hu]
  | cons c rest => exact (forward_scanToken hu).1

end Lexer

namespace Session

variable {s : Session} {x : Step} {l : Lexer} {a b : Address} {i : Nat}

/-! ## Views and changes -/

theorem lexer_update : (s.update l).lexer = l := by
  simp only [lexer, update, Heap.read_write_self]

/-- A lexer that stays as it is leaves the session as it is. -/
theorem update_lexer : s.update s.lexer = s := by
  simp only [lexer, update, Heap.write_read]

theorem update_rewind : s.rewind.update l = s.update l := by
  simp only [rewind, clear, update, Heap.write_write]

theorem lexer_rewind : s.rewind.lexer = s.lexer.rewind := by
  simp only [lexer, rewind, clear, Lexer.rewind, Heap.read_write_self]

theorem lexer_handOut : s.handOut.2.lexer = s.lexer := by
  simp only [lexer, handOut, Heap.read_allocate_read]

theorem getElem?_returned : s.returned[i]? = s.results[i]?.map s.heap.read :=
  List.getElem?_map

/-! ## One step -/

/-- The source after a step. -/
def Step.sourceAfter (source : Text) : Step → Text
  | .setSource t => t
  | _ => source

/-- What steps do to a session. Tokenizing hands out the list that it has filled, clearing empties one
of the lists that were handed out, and any other step moves the lexer on or leaves it. -/
inductive Comes (s : Session) : Step → Session → Prop
  | tokenize (l : Lexer) : Comes s .tokenize (s.update l).handOut.2
  | clear {i : Nat} {a : Address} : s.results[i]? = some a → Comes s (.clearReturned i) (s.clear a)
  | update {x : Step} (l : Lexer) : x ≠ .tokenize →
      (∀ i, x = .clearReturned i → s.results[i]? = none) → Comes s x (s.update l)

/-- A step that leaves the session as it is. -/
theorem Comes.stay (ht : x ≠ .tokenize) (hc : ∀ i, x = .clearReturned i → s.results[i]? = none) :
    s.Comes x s := by
  have h := Comes.update s.lexer ht hc
  rwa [update_lexer] at h

/-- Tokenizing is what the lexer by itself makes of its source, with a copy of the tokens handed
out. -/
theorem step_tokenize (s : Session) : ∃ ended,
    s.step .tokenize = (.ok (.tokens (scan s.lexer.source).tokens), (s.update ended).handOut.2) ∧
    s.lexer.tokenize = (.ok (scan s.lexer.source).tokens, ended) ∧
    ended.source = s.lexer.source ∧ ended.tokens = (scan s.lexer.source).tokens ∧
    ended.errors = (scan s.lexer.source).errors ∧ ended.current = s.lexer.source.length ∧
    ended.line = 1 + Text.lineFeeds s.lexer.source := by
  obtain ⟨ended, ht, hs, htokens, hr⟩ := s.lexer.tokenize_eq
  have hread : ∃ closed, s.lexer.rewind.readAll = (.ok (), closed) ∧ closed.close = ended := by
    unfold Lexer.tokenize at ht
    split at ht
    · next closed hc => exact ⟨closed, hc, (Prod.mk.inj ht).2⟩
    · cases ht
  obtain ⟨closed, hc, rfl⟩ := hread
  refine ⟨closed.close, ?_, ht, hs, htokens, hr⟩
  have hcopy : (s.update closed.close).handOut.2.heap.read (s.update closed.close).handOut.1 =
      (scan s.lexer.source).tokens := by
    simp only [handOut, Heap.read_allocate_self, update, Heap.read_write_self, htokens]
  simp only [step, lexer_rewind, update_rewind, hc]
  exact congrArg (fun ts => (Except.ok (Answer.tokens ts), (s.update closed.close).handOut.2)) hcopy

theorem step_clearReturned (h : s.results[i]? = some a) :
    s.step (.clearReturned i) = (.ok .done, s.clear a) := by
  simp only [step, h]

theorem comes_step (s : Session) (x : Step) : s.Comes x (s.step x).2 := by
  cases x with
  | tokenize =>
    obtain ⟨ended, ht, -⟩ := s.step_tokenize
    rw [ht]
    exact .tokenize ended
  | clearReturned i =>
    simp only [step]
    split
    · next a ha => exact .clear ha
    · next hn =>
      refine .stay (by simp) fun j hj => ?_
      cases hj
      exact hn
  | setSource source =>
    have h : s.Comes (.setSource source) (s.update { s.lexer with source }) :=
      .update _ (by simp) (by simp)
    simp only [lexer, update, Heap.write_read] at h
    exact h
  | returned i =>
    simp only [step]
    split <;> exact .stay (by simp) (by simp)
  | addToken kind literal =>
    simp only [step]
    split
    · exact .update _ (by simp) (by simp)
    · exact .stay (by simp) (by simp)
  | hasErrors | errors | peek | peekNext | isAtEnd => exact .stay (by simp) (by simp)
  | begin | advance | accept | scanToken | slash | blockComment | string | number | identifier =>
    exact .update _ (by simp) (by simp)

theorem source_step (s : Session) (x : Step) :
    (s.step x).2.lexer.source = x.sourceAfter s.lexer.source := by
  cases x with
  | tokenize =>
    obtain ⟨ended, ht, -, hs, -⟩ := s.step_tokenize
    rw [ht, lexer_handOut, lexer_update]
    exact hs
  | returned i | clearReturned i =>
    simp only [step]
    split <;> rfl
  | addToken kind literal =>
    simp only [step]
    split
    · rw [lexer_update]
      rfl
    · rfl
  | advance => exact s.lexer.source_advance
  | accept expected => exact s.lexer.source_accept expected
  | scanToken => exact s.lexer.source_scanToken
  | slash => exact s.lexer.forward_slash.1
  | blockComment => exact s.lexer.forward_blockComment.1
  | string => exact s.lexer.forward_string.1
  | number => exact s.lexer.forward_number.1
  | identifier => exact s.lexer.forward_identifier.1
  | setSource | hasErrors | errors | begin | peek | peekNext | isAtEnd => rfl

/-! ## Lists stay apart -/

/-- The lexer's list and the lists that were handed out are different lists, and none of them is where
a new list would be put. -/
structure IsApart (s : Session) : Prop where
  own_lt : s.own < s.heap.next
  results_lt : ∀ a ∈ s.results, a < s.heap.next
  own_not_mem : s.own ∉ s.results
  results_nodup : s.results.Nodup

theorem isApart_ofSource (source : Text) : (ofSource source).IsApart where
  own_lt := Nat.zero_lt_one
  results_lt _ ha := nomatch ha
  own_not_mem h := nomatch h
  results_nodup := List.nodup_nil

theorem IsApart.update (hs : s.IsApart) (l : Lexer) : (s.update l).IsApart :=
  ⟨hs.own_lt, hs.results_lt, hs.own_not_mem, hs.results_nodup⟩

theorem IsApart.clear (hs : s.IsApart) (a : Address) : (s.clear a).IsApart :=
  ⟨hs.own_lt, hs.results_lt, hs.own_not_mem, hs.results_nodup⟩

theorem IsApart.next_not_mem (hs : s.IsApart) : s.heap.next ∉ s.own :: s.results := by
  intro hm
  rcases List.mem_cons.1 hm with he | hm
  · exact Nat.ne_of_gt hs.own_lt he
  · exact Nat.lt_irrefl _ (hs.results_lt _ hm)

/-- The copy is put where there was no list, so it is a list apart from all others. -/
theorem IsApart.handOut (hs : s.IsApart) : s.handOut.2.IsApart := by
  have hnew := hs.next_not_mem
  obtain ⟨ho, hr, hn, hd⟩ := hs
  refine ⟨Nat.lt_succ_of_lt ho, fun a ha => ?_, fun hm => ?_, ?_⟩
  · rcases List.mem_append.1 ha with ha | ha
    · exact Nat.lt_succ_of_lt (hr a ha)
    · rw [List.mem_singleton.1 ha]
      exact Nat.lt_succ_self _
  · rcases List.mem_append.1 hm with hm | hm
    · exact hn hm
    · exact Nat.ne_of_lt ho (List.mem_singleton.1 hm)
  · refine List.nodup_append.2 ⟨hd, List.pairwise_singleton _ _, fun a ha b hb he => ?_⟩
    obtain rfl : b = s.heap.next := List.mem_singleton.1 hb
    exact hnew (List.mem_cons_of_mem _ (he ▸ ha))

/-- A step keeps the lists apart. -/
theorem IsApart.step (hs : s.IsApart) (x : Step) : (s.step x).2.IsApart := by
  have hc := s.comes_step x
  generalize (s.step x).2 = next at hc
  cases hc with
  | tokenize l => exact (hs.update l).handOut
  | clear => exact hs.clear _
  | update l => exact hs.update l

/-! ## What is done to the lists -/

/-- The lexer's list is filled without a list that was handed out being changed. -/
theorem returned_update (ho : s.own ∉ s.results) : (s.update l).returned = s.returned :=
  List.map_congr_left fun _ ha => Heap.read_write_of_ne fun he => ho (he ▸ ha)

/-- A list that was handed out is emptied without the lexer's list being changed. -/
theorem lexer_clear (hs : s.IsApart) (ha : a ∈ s.results) : (s.clear a).lexer = s.lexer := by
  have ho : s.own ≠ a := fun he => hs.own_not_mem (he ▸ ha)
  simp only [lexer, clear, Heap.read_write_of_ne ho]

/-- A list that was handed out is emptied without another one being changed. -/
theorem returned_clear (hs : s.IsApart) (hi : s.results[i]? = some a) :
    (s.clear a).returned = s.returned.set i [] := by
  refine List.ext_getElem? fun j => ?_
  rw [getElem?_returned, List.getElem?_set, getElem?_returned]
  obtain ⟨hlt, hia⟩ := List.getElem?_eq_some_iff.1 hi
  split
  · next hj =>
    subst hj
    have hcleared : (s.clear a).heap.read a = [] := Heap.read_write_self
    have hlen : i < s.returned.length := by simpa [returned] using hlt
    rw [if_pos hlen]
    exact (congrArg _ hi).trans (congrArg some hcleared)
  · next hj =>
    refine Option.map_congr fun b hb => Heap.read_write_of_ne fun he => hj ?_
    obtain ⟨_, hja⟩ := List.getElem?_eq_some_iff.1 hb
    exact hs.results_nodup.getElem_inj_iff.1 (hia.trans (he.symm.trans hja.symm))

/-- Handing out adds the lexer's tokens to the lists. -/
theorem returned_handOut (hs : s.IsApart) : s.handOut.2.returned = s.returned ++ [s.lexer.tokens] := by
  have hkept : s.results.map s.handOut.2.heap.read = s.returned :=
    List.map_congr_left fun a ha => Heap.read_allocate_of_lt (hs.results_lt a ha)
  have hcopy : s.handOut.2.heap.read s.heap.next = s.lexer.tokens := Heap.read_allocate_self
  calc s.handOut.2.returned
      = s.results.map s.handOut.2.heap.read ++ [s.handOut.2.heap.read s.heap.next] :=
        List.map_append
    _ = s.returned ++ [s.lexer.tokens] := by rw [hkept, hcopy]

/-- A step changes a list that was handed out only if it clears that very list. -/
theorem getElem?_returned_step {ts : List Token} (hs : s.IsApart) (h : s.returned[i]? = some ts)
    (x : Step) : (s.step x).2.returned[i]? = some (if x = .clearReturned i then [] else ts) := by
  have hc := s.comes_step x
  generalize (s.step x).2 = next at hc
  obtain ⟨hi, -⟩ := List.getElem?_eq_some_iff.1 h
  cases hc with
  | tokenize l =>
    rw [returned_handOut (hs.update l), returned_update hs.own_not_mem,
      List.getElem?_append_left hi, h]
    simp
  | @clear j b hb =>
    rw [returned_clear hs hb, List.getElem?_set]
    by_cases hj : j = i
    · subst hj
      simp [hi]
    · simp [hj, h]
  | update l ht hn =>
    have hx : x ≠ .clearReturned i := by
      rintro rfl
      simp [getElem?_returned, hn i rfl] at h
    rw [returned_update hs.own_not_mem, h, if_neg hx]

/-- Clearing a list leaves the lexer and the other lists that were handed out alone. -/
theorem clearReturned_step (hs : s.IsApart) (i : Nat) :
    (s.step (.clearReturned i)).2.lexer = s.lexer ∧
      ∀ j, j ≠ i → (s.step (.clearReturned i)).2.returned[j]? = s.returned[j]? := by
  cases hi : s.results[i]? with
  | none =>
    have hstay : (s.step (.clearReturned i)).2 = s := by simp only [step, hi]
    rw [hstay]
    exact ⟨rfl, fun _ _ => rfl⟩
  | some a =>
    rw [step_clearReturned hi]
    refine ⟨lexer_clear hs (List.mem_of_getElem? hi), fun j hj => ?_⟩
    rw [returned_clear hs hi, List.getElem?_set_ne hj.symm]

/-! ## Many steps -/

/-- The session after some steps. What they answer, and whether they fail, does not matter. -/
def run (s : Session) : List Step → Session
  | [] => s
  | x :: xs => run (s.step x).2 xs

/-- The source after some steps: the one set last, or else the one before them. -/
def lastSource (source : Text) : List Step → Text :=
  List.foldl Step.sourceAfter source

theorem source_run (s : Session) (steps : List Step) :
    (s.run steps).lexer.source = lastSource s.lexer.source steps := by
  induction steps generalizing s with
  | nil => rfl
  | cons x xs ih => rw [run, ih, source_step, lastSource, lastSource, List.foldl_cons]

theorem IsApart.run (h : s.IsApart) (steps : List Step) : (s.run steps).IsApart := by
  induction steps generalizing s with
  | nil => exact h
  | cons x xs ih => exact ih (h.step x)

/-- Steps change a list that was handed out only if one of them clears that very list. -/
theorem getElem?_returned_run {ts : List Token} (hs : s.IsApart) (h : s.returned[i]? = some ts)
    (steps : List Step) :
    (s.run steps).returned[i]? = some (if .clearReturned i ∈ steps then [] else ts) := by
  induction steps generalizing s ts with
  | nil => simpa [run] using h
  | cons x xs ih =>
    rw [run, ih (hs.step x) (getElem?_returned_step hs h x)]
    -- Once the list is empty, clearing it again and keeping it are the same.
    by_cases hx : x = .clearReturned i
    · simp [hx]
    · simp [hx, Ne.symm hx]

/-- Whatever was done to a session, tokenizing comes to what the source set last gives. Its answer is
handed out in a list that is neither the lexer's own nor one handed out before, and the lexer's stays
the list it was. Nothing later changes a list that was handed out but clearing that very list, and
clearing it leaves the lexer and the other lists alone. -/
theorem tokenize_after_any_steps (source : Text) (before : List Step) :
    let s := (ofSource source).run before
    let scanned := scan s.lexer.source
    s.lexer.source = lastSource source before ∧
    (∃ copy next, s.step .tokenize = (.ok (.tokens scanned.tokens), next) ∧
      next.lexer.tokens = scanned.tokens ∧
      next.lexer.errors = scanned.errors ∧
      next.lexer.current = s.lexer.source.length ∧
      next.lexer.line = 1 + Text.lineFeeds s.lexer.source ∧
      copy ∉ s.own :: s.results ∧ next.own = s.own ∧ next.results = s.results ++ [copy] ∧
      next.returned = s.returned ++ [scanned.tokens] ∧
      ∀ later, (next.run later).returned[s.returned.length]? =
        some (if .clearReturned s.returned.length ∈ later then [] else scanned.tokens)) ∧
    (∀ i ts, s.returned[i]? = some ts → ∀ later,
      (s.run later).returned[i]? = some (if .clearReturned i ∈ later then [] else ts)) ∧
    ∀ i, (s.step (.clearReturned i)).2.lexer = s.lexer ∧
      ∀ j, j ≠ i → (s.step (.clearReturned i)).2.returned[j]? = s.returned[j]? := by
  intro s scanned
  have hs : s.IsApart := (isApart_ofSource source).run before
  refine ⟨source_run _ before, ?_, fun i ts hi => getElem?_returned_run hs hi,
    clearReturned_step hs⟩
  obtain ⟨ended, ht, -, -, hts, hes, hc, hl⟩ := s.step_tokenize
  have hlexer : (s.update ended).handOut.2.lexer = ended := lexer_handOut.trans lexer_update
  have hreturned : (s.update ended).handOut.2.returned = s.returned ++ [scanned.tokens] := by
    rw [returned_handOut (hs.update ended), returned_update hs.own_not_mem, lexer_update, hts]
  refine ⟨s.heap.next, _, ht, ?_, ?_, ?_, ?_, hs.next_not_mem, rfl, rfl, hreturned, ?_⟩
  · rw [hlexer, hts]
  · rw [hlexer, hes]
  · rw [hlexer, hc]
  · rw [hlexer, hl]
  · refine getElem?_returned_run (hs.update ended).handOut ?_
    rw [hreturned, List.getElem?_concat_length]

end Session

end ScriptLexer
