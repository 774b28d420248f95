import ScriptLexer.Proofs.Lines

/-! # Lookahead

Where a piece ends depends on no more than the two characters behind it. So two texts that agree as
far as two characters behind some place have the same pieces up to that place, with the same tokens
and errors on the same lines. In particular text that is appended only changes what is read from the
last two characters, or from a string or comment that is still open at the end. -/

namespace ScriptLexer

/-! ## Two characters decide -/

variable {after after' : Text}

theorem startsFraction_take (t : Text) : StartsFraction (t.take 2) ↔ StartsFraction t := by
  match t with
  | [] | [_] => rfl
  | c :: d :: rest => simp [StartsFraction]

theorem head?_take_two (t : Text) : (t.take 2).head? = t.head? := by
  cases t <;> rfl

theorem Symbol.endsBefore_take (after : Text) (s : Symbol) :
    s.EndsBefore (after.take 2) ↔ s.EndsBefore after := by
  cases s <;> simp only [EndsBefore, head?_take_two]

theorem Piece.endsBefore_take (after : Text) (p : Piece) :
    p.EndsBefore (after.take 2) ↔ p.EndsBefore after := by
  cases p with
  | symbol s => exact s.endsBefore_take after
  | lineComment => simp only [EndsBefore, head?_take_two]
  | openComment | openString => simp [EndsBefore]
  | number whole fraction =>
    cases fraction <;>
      simp only [EndsBefore, Text.StopsRun, head?_take_two, startsFraction_take]
  | word => simp only [EndsBefore, Text.StopsRun, head?_take_two]
  | blank | blockComment | string | stray => rfl

theorem Piece.Fits.of_take {p : Piece} (h : p.Fits after) (ht : after.take 2 = after'.take 2) :
    p.Fits after' :=
  ⟨h.wellFormed, by rw [← p.endsBefore_take, ← ht, p.endsBefore_take]; exact h.endsBefore⟩

/-! ## Pieces of texts that agree at the beginning -/

/-- The number of characters up to the end of a placed piece. -/
def Place.stop (a : Place) : Nat :=
  (a.before ++ a.piece.text).length

theorem Place.stop_eq (a : Place) : a.stop = a.before.length + a.piece.text.length :=
  List.length_append

theorem length_le_of_mem_placed {before : Text} {ps : List Piece} {a : Place}
    (ha : a ∈ placed before ps) : before.length ≤ a.before.length := by
  induction ps generalizing before with
  | nil => cases ha
  | cons p ps ih =>
    rcases List.mem_cons.1 ha with rfl | ha
    · exact Nat.le_refl _
    · have := ih ha
      rw [List.length_append] at this
      omega

/-- No piece ends behind the beginning of a later one. -/
theorem pairwise_stop_placed (before : Text) (ps : List Piece) :
    (placed before ps).Pairwise fun a b => a.stop ≤ b.before.length := by
  induction ps generalizing before with
  | nil => exact .nil
  | cons p ps ih => exact .cons (fun b hb => length_le_of_mem_placed hb) (ih _)

/-- The places up to which, and two characters further, there are at most `n` characters. -/
def settled (n : Nat) (places : List Place) : List Place :=
  places.filter fun a => a.stop + 2 ≤ n

theorem settled_cons (n : Nat) (a : Place) (places : List Place) :
    settled n (a :: places) =
      if a.stop + 2 ≤ n then a :: settled n places else settled n places := by
  simp [settled, List.filter_cons]

theorem settled_eq_nil {n : Nat} {places : List Place} (h : ∀ a ∈ places, n < a.stop + 2) :
    settled n places = [] := by
  refine List.filter_eq_nil_iff.2 fun a ha => ?_
  have := h a ha
  simpa using this

/-- If the first piece does not end two characters before the limit, no piece does. -/
theorem settled_placed_eq_nil {n : Nat} {before : Text} {p : Piece} {ps : List Piece}
    (hn : n < before.length + p.text.length + 2) :
    settled n (placed before (p :: ps)) = [] := by
  refine settled_eq_nil fun a ha => ?_
  rcases List.mem_cons.1 ha with rfl | ha
  · simpa only [Place.stop_eq] using hn
  · have hl := length_le_of_mem_placed ha
    rw [List.length_append] at hl
    rw [a.stop_eq]
    omega

/-- A piece that ends two characters before the texts may differ is the first piece of both. -/
theorem IsCut.cons_of_take {p : Piece} {after t : Text} {qs : List Piece} {n : Nat}
    (hf : p.Fits after) (h : IsCut t qs) (hn : p.text.length + 2 ≤ n)
    (ht : (p.text ++ after).take n = t.take n) :
    ∃ after' ps, qs = p :: ps ∧ IsCut after' ps ∧
      after.take (n - p.text.length) = after'.take (n - p.text.length) := by
  have hs : p.text ++ t.drop p.text.length = t := by
    have hp := congrArg (List.take p.text.length) ht
    rw [List.take_take, List.take_take, Nat.min_eq_left (by omega), List.take_left] at hp
    nth_rewrite 1 [hp]
    exact List.take_append_drop _ t
  have hk : after.take (n - p.text.length) = (t.drop p.text.length).take (n - p.text.length) := by
    rw [← hs, List.take_append, List.take_append] at ht
    simpa using ht
  have hk' : after.take 2 = (t.drop p.text.length).take 2 := by
    have := congrArg (List.take 2) hk
    rwa [List.take_take, List.take_take, Nat.min_eq_left (by omega)] at this
  have hc := IsCut.cons (hf.of_take hk') (isCut_cut _)
  rw [hs] at hc
  exact ⟨_, _, by rw [h.eq_cut, hc.eq_cut], isCut_cut _, hk⟩

/-- Texts that agree so far have the same pieces up to two characters before. -/
theorem settled_placed_eq {t t' : Text} {ps ps' : List Piece} {n : Nat} (h : IsCut t ps)
    (h' : IsCut t' ps') (ht : t.take n = t'.take n) (before : Text) :
    settled (before.length + n) (placed before ps) =
      settled (before.length + n) (placed before ps') := by
  induction h generalizing t' ps' n before with
  | nil =>
    cases h' with
    | nil => rfl
    | @cons q after qs hf hr =>
      have hl := congrArg List.length ht
      have hq := List.length_pos_iff.2 hf.wellFormed.text_ne_nil
      simp only [List.take_nil, List.length_take, List.length_append, List.length_nil] at hl
      exact (settled_placed_eq_nil (by omega)).symm
  | @cons p after ps hf hr ih =>
    by_cases hn : p.text.length + 2 ≤ n
    · obtain ⟨after', qs, rfl, hr', hk⟩ := h'.cons_of_take hf hn ht
      have hi := ih hr' hk (before ++ p.text)
      have hl : (before ++ p.text).length + (n - p.text.length) = before.length + n := by
        rw [List.length_append]
        omega
      rw [hl] at hi
      rw [placed, placed, settled_cons, settled_cons, hi]
    · rw [settled_placed_eq_nil (by omega)]
      cases h' with
      | nil => rfl
      | @cons q after' qs hf' hr' =>
        -- A piece of the second text that ends early enough would be one of the first text too.
        have hq : ¬ q.text.length + 2 ≤ n := by
          intro hm
          obtain ⟨_, _, he, -, -⟩ := (IsCut.cons hf hr).cons_of_take hf' hm ht.symm
          rw [(List.cons.inj he).1] at hn
          exact hn hm
        exact (settled_placed_eq_nil (by omega)).symm

/-! ## Findings with their ends -/

/-- The tokens of a text but the one for its end, each with the number of characters up to the end of
its lexeme. -/
def tokenEnds (source : Text) : List (Token × Nat) :=
  (placed [] (cut source)).filterMap fun a => (a.piece.token? a.line).map (·, a.stop)

/-- The errors of a text, each with the number of characters up to the end of its piece. -/
def errorEnds (source : Text) : List (LexError × Nat) :=
  (placed [] (cut source)).filterMap fun a => (a.piece.error? a.endLine).map (·, a.stop)

/-- What is found on places and ends early enough is found on the places that end early enough. -/
theorem filter_filterMap_stop {α : Type} (f : Place → Option α) (n : Nat) (places : List Place) :
    (places.filterMap fun a => (f a).map (·, a.stop)).filter (fun b => b.2 + 2 ≤ n) =
      (settled n places).filterMap fun a => (f a).map (·, a.stop) := by
  induction places with
  | nil => rfl
  | cons a places ih =>
    rw [settled_cons, filterMap_cons_toList, List.filter_append, ih]
    cases hf : f a <;> split <;> simp_all

theorem settled_append (p x : Text) :
    settled p.length (placed [] (cut (p ++ x))) = settled p.length (placed [] (cut p)) := by
  have ht : (p ++ x).take p.length = p.take p.length := by simp
  simpa using settled_placed_eq (isCut_cut (p ++ x)) (isCut_cut p) ht []

section

variable (source : Text)

theorem map_fst_tokenEnds : (tokenEnds source).map Prod.fst = readTokens [] (cut source) := by
  simp [tokenEnds, readTokens, List.map_filterMap, Option.map_map, Function.comp_def]

theorem map_fst_errorEnds : (errorEnds source).map Prod.fst = readErrors [] (cut source) := by
  simp [errorEnds, readErrors, List.map_filterMap, Option.map_map, Function.comp_def]

end

/-- A token that ends behind so many characters of a text: its lexeme is there, and its line is that
of the first character of the lexeme. -/
def Token.EndsAt (source : Text) (t : Token) (stop : Nat) : Prop :=
  ∃ before after, source = before ++ t.lexeme ++ after ∧ (before ++ t.lexeme).length = stop ∧
    t.line = (1 + Text.lineFeeds before : Nat)

/-- An error that ends behind so many characters of a text. An unexpected character stands there; what
is not closed ends with the text. -/
def LexError.EndsAt (source : Text) (e : LexError) (stop : Nat) : Prop :=
  (∃ before c after, source = before ++ c :: after ∧ before.length + 1 = stop ∧
    e = LexError.unexpectedCharacter c (1 + Text.lineFeeds before : Nat)) ∨
  (e.fault? ≠ some .unexpectedCharacter ∧ stop = source.length)

theorem endsAt_of_mem_tokenEnds {source : Text} {f : Token × Nat} (h : f ∈ tokenEnds source) :
    f.1.EndsAt source f.2 := by
  obtain ⟨a, ha, hf⟩ := List.mem_filterMap.1 h
  obtain ⟨t, ht, rfl⟩ := Option.map_eq_some_iff.1 hf
  obtain ⟨hl, hn⟩ := Piece.lexeme_of_token? ht
  obtain ⟨after, -, hs⟩ := fits_of_mem_placed (isCut_cut source) ha
  exact ⟨a.before, after, by rw [hl]; exact hs, by rw [hl]; rfl, hn⟩

theorem endsAt_of_mem_errorEnds {source : Text} {f : LexError × Nat} (h : f ∈ errorEnds source) :
    f.1.EndsAt source f.2 := by
  obtain ⟨a, ha, hf⟩ := List.mem_filterMap.1 h
  obtain ⟨e, he, rfl⟩ := Option.map_eq_some_iff.1 hf
  obtain ⟨after, hfit, hs⟩ := fits_of_mem_placed (isCut_cut source) ha
  have hfault := faultIn_of_error? (isCut_cut source) ha he
  obtain ⟨before, p⟩ := a
  cases p with
  | stray c =>
    exact .inl ⟨before, c, after, by simpa [Piece.text] using hs, by simp [Place.stop, Piece.text],
      hfault⟩
  | openString body | openComment body =>
    obtain rfl : after = [] := hfit.endsBefore
    rw [List.append_nil, List.nil_append] at hs
    refine .inr ⟨fun he => ?_, by rw [hs]; rfl⟩
    rw [hfault] at he
    cases he
  | _ => cases hfault

theorem pairwise_tokenEnds (source : Text) :
    (tokenEnds source).Pairwise fun f g => f.2 + g.1.lexeme.length ≤ g.2 := by
  refine (pairwise_stop_placed [] (cut source)).filterMap _ fun a b hab f hf g hg => ?_
  obtain ⟨t, -, rfl⟩ := Option.map_eq_some_iff.1 hf
  obtain ⟨u, hu, rfl⟩ := Option.map_eq_some_iff.1 hg
  simp only [(Piece.lexeme_of_token? hu).1, b.stop_eq]
  omega

/-- Nothing further than two characters behind a token or an error decides it. The tokens of a
tokenized text, but the one for its end, and its errors are taken with the places where they end; the
tokens follow each other without overlap. When text is appended, those that end two characters before
the end of the first text, or earlier, are exactly the same, in the same order and on the same lines,
and the errors among them are unexpected characters. -/
theorem appended_text_changes_only_the_end (p x : Text) :
    (∀ l : Lexer, ∃ ended,
      l.tokenize = (.ok ((tokenEnds l.source).map Prod.fst ++
        [Token.endOfText (1 + Text.lineFeeds l.source : Nat)]), ended) ∧
      ended.errors = (errorEnds l.source).map Prod.fst) ∧
    (∀ source, (∀ f ∈ tokenEnds source, f.1.EndsAt source f.2) ∧
      (∀ f ∈ errorEnds source, f.1.EndsAt source f.2) ∧
      (tokenEnds source).Pairwise fun f g => f.2 + g.1.lexeme.length ≤ g.2) ∧
    (tokenEnds (p ++ x)).filter (fun f => f.2 + 2 ≤ p.length) =
      (tokenEnds p).filter (fun f => f.2 + 2 ≤ p.length) ∧
    (errorEnds (p ++ x)).filter (fun f => f.2 + 2 ≤ p.length) =
      (errorEnds p).filter (fun f => f.2 + 2 ≤ p.length) ∧
    ∀ f ∈ errorEnds p, f.2 + 2 ≤ p.length → f.1.fault? = some .unexpectedCharacter := by
  refine ⟨fun l => ?_, fun source => ?_, ?_, ?_, fun f hf hs => ?_⟩
  · obtain ⟨ended, ht, -, -, he, -⟩ := l.tokenize_eq
    refine ⟨ended, ?_, ?_⟩
    · rw [ht, tokens_scan (isCut_cut _), map_fst_tokenEnds]
    · rw [he, errors_scan (isCut_cut _), map_fst_errorEnds]
  · exact ⟨fun f => endsAt_of_mem_tokenEnds, fun f => endsAt_of_mem_errorEnds,
      pairwise_tokenEnds source⟩
  · rw [tokenEnds, tokenEnds, filter_filterMap_stop, filter_filterMap_stop, settled_append]
  · rw [errorEnds, errorEnds, filter_filterMap_stop, filter_filterMap_stop, settled_append]
  · rcases endsAt_of_mem_errorEnds hf with ⟨before, c, after, -, -, he⟩ | ⟨-, he⟩
    · rw [he]
      rfl
    · omega

/-- A digit joins the number at the end, and the stray character before it stays as it is. -/
theorem appended_digit_leaves_stray_character :
    (LexError.unexpectedCharacter '@' 1, 1) ∈ errorEnds "@ 1.".toList ∧
      (LexError.unexpectedCharacter '@' 1, 1) ∈ errorEnds ("@ 1.".toList ++ ['5']) ∧
      (LexError.unexpectedCharacter '@' 1).fault? = some .unexpectedCharacter := by
  obtain ⟨-, -, -, hsame, hfault⟩ := appended_text_changes_only_the_end "@ 1.".toList ['5']
  have hmem : (LexError.unexpectedCharacter '@' 1, 1) ∈ errorEnds "@ 1.".toList := by decide +kernel
  have hsettled : (LexError.unexpectedCharacter '@' 1, 1) ∈
      (errorEnds "@ 1.".toList).filter fun f => f.2 + 2 ≤ "@ 1.".toList.length :=
    List.mem_filter.2 ⟨hmem, by decide⟩
  rw [← hsame] at hsettled
  exact ⟨hmem, (List.mem_filter.1 hsettled).1, hfault _ hmem (by decide)⟩

/-- One character is not enough: a digit behind the point takes the point into the number. -/
example : (tokenEnds ['1', '.']).map Prod.snd = [1, 2] ∧
    (tokenEnds ['1', '.', '5']).map Prod.snd = [3] := by
  decide +kernel

end ScriptLexer
