import ScriptLexer.Scan.Piece

/-! # The cut of a text

Taking first pieces until nothing is left cuts a text into pieces. The pieces in their order give the
text back, and there are at most as many as characters. -/

namespace ScriptLexer

namespace Lead

theorem eq_slash {c : Char} (h : Lead.of c = .slash) : c = '/' := by
  unfold Lead.of at h
  repeat' split at h
  all_goals first | assumption | cases h

theorem eq_quote {c : Char} (h : Lead.of c = .quote) : c = '\x22' := by
  unfold Lead.of at h
  repeat' split at h
  all_goals first | assumption | cases h

theorem ofPunctuation?_of_eq_symbol {c : Char} {s : Symbol} (h : Lead.of c = .symbol s) :
    Symbol.ofPunctuation? c = some s := by
  unfold Lead.of at h
  repeat' split at h
  all_goals first | assumption | cases h
  assumption

theorem ofEqualSuffixed?_of_eq {c : Char} {single double : Symbol}
    (h : Lead.of c = .equalSuffixed single double) :
    Symbol.ofEqualSuffixed? c = some (single, double) := by
  unfold Lead.of at h
  repeat' split at h
  all_goals first | assumption | cases h
  assumption

end Lead

namespace Piece

theorem readSlash_text (rest : Text) :
    (readSlash rest).1.text ++ (readSlash rest).2 = '/' :: rest := by
  unfold readSlash
  split
  · simp [text]
  · split
    next h => simpa [text] using splitComment_eq h
    · simp [text]
  · simp [text, Symbol.spelling]

theorem readNumber_text (c : Char) (rest : Text) :
    (readNumber c rest).1.text ++ (readNumber c rest).2 = c :: rest := by
  unfold readNumber
  split
  next h =>
    have := splitFraction_eq h
    simp only [text, List.cons_append, List.append_assoc] at this ⊢
    rw [this, List.takeWhile_append_dropWhile]
  · simp [text]

/-- Reading a piece loses nothing. -/
theorem read_text (c : Char) (rest : Text) :
    (read c rest).1.text ++ (read c rest).2 = c :: rest := by
  unfold read
  split
  next s h => simp [text, Symbol.spelling_of_ofPunctuation? (Lead.ofPunctuation?_of_eq_symbol h)]
  next single double h =>
    obtain ⟨hs, hd⟩ := Symbol.spelling_of_ofEqualSuffixed? (Lead.ofEqualSuffixed?_of_eq h)
    split <;> simp [text, hs, hd]
  next h => rw [readSlash_text, Lead.eq_slash h]
  · simp [text]
  next h =>
    rw [Lead.eq_quote h]
    split
    next h => simpa [text] using splitString_eq h
    · simp [text]
  · exact readNumber_text c rest
  · simp [text]
  · simp [text]

theorem text_read_ne_nil (c : Char) (rest : Text) : (read c rest).1.text ≠ [] := by
  unfold read readSlash readNumber
  repeat' split
  all_goals simp [text, Symbol.spelling_ne_nil]

/-- Reading a piece leaves less than there was. -/
theorem length_read_lt (c : Char) (rest : Text) :
    (read c rest).2.length < (c :: rest).length := by
  have h := congrArg List.length (read_text c rest)
  have hp := List.length_pos_iff.2 (text_read_ne_nil c rest)
  rw [List.length_append] at h
  omega

end Piece

/-- The pieces of a text. -/
def cut : Text → List Piece
  | [] => []
  | c :: rest => (Piece.read c rest).1 :: cut (Piece.read c rest).2
termination_by t => t.length
decreasing_by exact Piece.length_read_lt c rest

theorem cut_nil : cut [] = [] := by
  rw [cut]

theorem cut_cons (c : Char) (rest : Text) :
    cut (c :: rest) = (Piece.read c rest).1 :: cut (Piece.read c rest).2 := by
  rw [cut]

/-- The pieces in their order are the text. -/
theorem flatMap_text_cut (t : Text) : (cut t).flatMap Piece.text = t := by
  fun_induction cut t with
  | case1 => rfl
  | case2 c rest ih => rw [List.flatMap_cons, ih, Piece.read_text]

end ScriptLexer
