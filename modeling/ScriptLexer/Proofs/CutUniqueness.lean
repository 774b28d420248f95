import ScriptLexer.Proofs.Delimiters

/-! # The cut is the only one

Reading a piece off a text gives a piece that fits what is left, and a fitting piece in front of a
text is what is read off it. So taking first pieces yields a cut by the grammar, and there is no
other: a text determines its pieces. -/

namespace ScriptLexer

namespace Piece

/-! ## What is read fits -/

theorem endsBefore_of_ofPunctuation? {c : Char} {s : Symbol} (after : Text)
    (h : Symbol.ofPunctuation? c = some s) : s.EndsBefore after := by
  unfold Symbol.ofPunctuation? at h
  split at h <;> cases h <;> trivial

theorem endsBefore_of_ofEqualSuffixed? {c : Char} {single double : Symbol}
    (h : Symbol.ofEqualSuffixed? c = some (single, double)) (after : Text) :
    double.EndsBefore after ∧ (after.head? ≠ some '=' → single.EndsBefore after) := by
  unfold Symbol.ofEqualSuffixed? at h
  split at h <;> cases h <;> exact ⟨trivial, id⟩

theorem readSlash_fits (rest : Text) : (readSlash rest).1.Fits (readSlash rest).2 := by
  unfold readSlash
  split
  · next r =>
    refine ⟨Text.not_mem_takeWhile_ne _ r, ?_⟩
    intro c hc
    simpa using Text.stopsRun_dropWhile _ _ c hc
  · split
    · next hs => exact ⟨closesOnce_of_splitComment hs, trivial⟩
    · next hs => exact ⟨splitComment_eq_none_iff.1 hs, rfl⟩
  · next hl hb => exact ⟨trivial, Text.head?_ne_some hl, Text.head?_ne_some hb⟩

theorem readNumber_fits {c : Char} (hc : isDigit c = true) (rest : Text) :
    (readNumber c rest).1.Fits (readNumber c rest).2 := by
  have hd : IsDigits (c :: rest.takeWhile isDigit) :=
    isDigits_cons.2 ⟨hc, fun _ hd => List.mem_takeWhile_imp hd⟩
  unfold readNumber
  split
  · next fraction after hs =>
    obtain ⟨hf, ha⟩ := isDigits_of_splitFraction hs
    exact ⟨⟨hd, by simpa using hf⟩, ha⟩
  · next hs =>
    exact ⟨⟨hd, by simp⟩, Text.stopsRun_dropWhile _ _, splitFraction_eq_none_iff.1 hs⟩

/-- The first piece of a text fits the rest of the text. -/
theorem read_fits (c : Char) (rest : Text) : (read c rest).1.Fits (read c rest).2 := by
  unfold read
  split
  · next s h =>
    exact ⟨trivial, endsBefore_of_ofPunctuation? _ (Lead.ofPunctuation?_of_eq_symbol h)⟩
  · next single double h =>
    have hs := Lead.ofEqualSuffixed?_of_eq h
    split
    · exact ⟨trivial, (endsBefore_of_ofEqualSuffixed? hs _).1⟩
    · next hne =>
      exact ⟨trivial, (endsBefore_of_ofEqualSuffixed? hs _).2 (Text.head?_ne_some hne)⟩
  · exact readSlash_fits rest
  · next h => exact ⟨Lead.of_eq_blank_iff.1 h, trivial⟩
  · split
    · next hs => exact ⟨not_mem_of_splitString hs, trivial⟩
    · next hs => exact ⟨splitString_eq_none_iff.1 hs, rfl⟩
  · next h => exact readNumber_fits (Lead.of_eq_digit_iff.1 h) rest
  · next h =>
    exact ⟨⟨Lead.of_eq_letter_iff.1 h, fun _ hd => List.mem_takeWhile_imp hd⟩,
      Text.stopsRun_dropWhile _ _⟩
  · next h => exact ⟨Lead.of_eq_stray_iff.1 h, trivial⟩

/-! ## What fits is read -/

theorem read_equalSuffixed {c : Char} {single double : Symbol} {after : Text}
    (hl : Lead.of c = .equalSuffixed single double) (h : after.head? ≠ some '=') :
    read c after = (symbol single, after) := by
  unfold read
  rw [hl]
  dsimp only
  split
  · exact absurd rfl h
  · rfl

theorem readSlash_symbol {after : Text} (h : Symbol.EndsBefore after .slash) :
    readSlash after = (symbol .slash, after) := by
  unfold readSlash
  split
  · exact absurd rfl h.1
  · exact absurd rfl h.2
  · rfl

theorem readSlash_lineComment {body after : Text} (hb : '\n' ∉ body)
    (ha : ∀ c ∈ after.head?, c = '\n') :
    readSlash ('/' :: (body ++ after)) = (lineComment body, after) := by
  have hr := Text.ne_of_not_mem hb
  have hs : Text.StopsRun (fun c => decide (c ≠ '\n')) after := by
    intro c hc
    simpa using ha c hc
  simp only [readSlash, Text.takeWhile_append_of_stopsRun hr hs,
    Text.dropWhile_append_of_stopsRun hr hs]

theorem read_symbol {s : Symbol} {after t : Text} {c : Char} (h : s.EndsBefore after)
    (ht : s.spelling = c :: t) : read c (t ++ after) = (symbol s, after) := by
  cases s <;> cases ht
  -- Only these five symbols depend on what follows.
  case bang | equal | greater | less => exact read_equalSuffixed rfl h
  case slash => exact readSlash_symbol h
  all_goals rfl

theorem read_number {whole after t : Text} {fraction : Option Text} {c : Char}
    (h : (number whole fraction).Fits after) (ht : (number whole fraction).text = c :: t) :
    read c (t ++ after) = (number whole fraction, after) := by
  obtain ⟨⟨hw, hf⟩, ha⟩ := h
  cases whole with
  | nil => exact absurd rfl hw.1
  | cons d whole =>
    obtain ⟨hd, hr⟩ := isDigits_cons.1 hw
    cases fraction with
    | none =>
      cases ht
      simp only [read, Lead.of_eq_digit_iff.2 hd, readNumber,
        Text.takeWhile_append_of_stopsRun hr ha.1, Text.dropWhile_append_of_stopsRun hr ha.1,
        splitFraction_eq_none_iff.2 ha.2]
    | some f =>
      cases ht
      have hp : Text.StopsRun isDigit ('.' :: f ++ after) := by
        rw [List.cons_append, Text.stopsRun_cons]
        rfl
      show read c (whole ++ '.' :: f ++ after) = _
      rw [List.append_assoc]
      simp only [read, Lead.of_eq_digit_iff.2 hd, readNumber,
        Text.takeWhile_append_of_stopsRun hr hp, Text.dropWhile_append_of_stopsRun hr hp,
        splitFraction_append (hf f rfl) ha]

/-- A piece that fits what follows it is what is read. -/
theorem read_append {p : Piece} {after t : Text} {c : Char} (h : p.Fits after)
    (ht : p.text = c :: t) : read c (t ++ after) = (p, after) := by
  cases p with
  | symbol s => exact read_symbol h.endsBefore ht
  | blank b =>
    cases ht
    simp [read, Lead.of_eq_blank_iff.2 h.wellFormed]
  | lineComment body =>
    cases ht
    exact readSlash_lineComment h.wellFormed h.endsBefore
  | blockComment body =>
    cases ht
    have hs := splitComment_append h.wellFormed after
    simp [read, show Lead.of '/' = .slash from rfl, readSlash, hs]
  | openComment body =>
    cases ht
    obtain rfl : after = [] := h.endsBefore
    have hs := splitComment_eq_none_iff.2 h.wellFormed
    simp [read, show Lead.of '/' = .slash from rfl, readSlash, hs]
  | string body =>
    cases ht
    have hs := splitString_append h.wellFormed after
    simp [read, show Lead.of '\x22' = .quote from rfl, hs]
  | openString body =>
    cases ht
    obtain rfl : after = [] := h.endsBefore
    have hs := splitString_eq_none_iff.2 h.wellFormed
    simp [read, show Lead.of '\x22' = .quote from rfl, hs]
  | number whole fraction => exact read_number h ht
  | word w =>
    obtain rfl : w = c :: t := ht
    have hl := Lead.of_eq_letter_iff.2 h.wellFormed.1
    simp only [read, hl, Text.takeWhile_append_of_stopsRun h.wellFormed.2 h.endsBefore,
      Text.dropWhile_append_of_stopsRun h.wellFormed.2 h.endsBefore]
  | stray b =>
    cases ht
    simp [read, Lead.of_eq_stray_iff.2 h.wellFormed]

end Piece

/-! ## Cuts -/

/-- The pieces taken one by one are a cut by the grammar. -/
theorem isCut_cut (t : Text) : IsCut t (cut t) := by
  fun_induction cut t with
  | case1 => exact .nil
  | case2 c rest ih =>
    have hc := IsCut.cons (Piece.read_fits c rest) ih
    rwa [Piece.read_text] at hc

/-- Every cut by the grammar consists of these pieces. -/
theorem IsCut.eq_cut {t : Text} {ps : List Piece} (h : IsCut t ps) : ps = cut t := by
  induction h with
  | nil => rw [cut_nil]
  | @cons p after ps hf _ ih =>
    obtain ⟨c, t, ht⟩ := List.exists_cons_of_ne_nil hf.wellFormed.text_ne_nil
    have hr := Piece.read_append hf ht
    rw [ht, List.cons_append, cut_cons, hr, ih]

end ScriptLexer
