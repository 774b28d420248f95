import ScriptLexer.Scan.Basic
import ScriptLexer.Proofs.Grammar

/-! # The text of a number

The reader for arbitrary numeric text agrees with the reader for digits on what a number lexeme can
be: digits, or digits, a point and digits. None of its other rules applies there: there is no white
space to trim, no digit of another script, no separator, no sign, no word and no exponent. -/

namespace ScriptLexer

/-- The characters of number lexemes. -/
def numberCharacters : Text :=
  ['.', '0', '1', '2', '3', '4', '5', '6', '7', '8', '9']

theorem mem_numberCharacters {c : Char} (h : isDigit c = true) : c ∈ numberCharacters := by
  simp only [isDigit, Bool.and_eq_true, decide_eq_true_eq, Char.le_def,
    UInt32.le_iff_toNat_le] at h
  obtain ⟨hl, hu⟩ := h
  have hl' : 48 ≤ c.toNat := hl
  have hu' : c.toNat ≤ 57 := hu
  rw [← Char.ofNat_toNat c]
  generalize c.toNat = n at hl' hu'
  have hn : n = 48 ∨ n = 49 ∨ n = 50 ∨ n = 51 ∨ n = 52 ∨ n = 53 ∨ n = 54 ∨ n = 55 ∨ n = 56 ∨
      n = 57 := by omega
  rcases hn with rfl | rfl | rfl | rfl | rfl | rfl | rfl | rfl | rfl | rfl <;> decide

theorem forall_mem_numberCharacters {P : Char → Prop} :
    (∀ c ∈ numberCharacters, P c) ↔
      P '.' ∧ P '0' ∧ P '1' ∧ P '2' ∧ P '3' ∧ P '4' ∧ P '5' ∧ P '6' ∧ P '7' ∧ P '8' ∧ P '9' := by
  simp only [numberCharacters, List.forall_mem_cons, List.not_mem_nil, false_imp_iff,
    imp_true_iff, and_true]

theorem not_isWhiteSpace_of_mem : ∀ c ∈ numberCharacters, Text.isWhiteSpace c = false :=
  forall_mem_numberCharacters.2 (by decide)

theorem toLower_of_mem : ∀ c ∈ numberCharacters, c.toLower = c :=
  forall_mem_numberCharacters.2 (by decide)

theorem isDigit_eq : isDigit = Char.isDigit := by
  funext c
  simp [isDigit, Char.isDigit, Char.le_def]

namespace Binary64

variable {t : Text}

theorem trimmed_eq_self (h : ∀ c ∈ t, Text.isWhiteSpace c = false) : Text.trimmed t = t := by
  have hd : ∀ s : Text, (∀ c ∈ s, Text.isWhiteSpace c = false) →
      s.dropWhile Text.isWhiteSpace = s := by
    intro s hs
    cases s with
    | nil => rfl
    | cons c r => rw [List.dropWhile_cons_of_neg (by simp [hs c])]
  rw [Text.trimmed, hd t h, hd t.reverse (by simpa using h), List.reverse_reverse]

theorem withoutSeparators?_eq_self (h : '_' ∉ t) : withoutSeparators? t = some t := by
  fun_induction withoutSeparators? t with
  | case1 => rfl
  | case2 => simp at h
  | case3 => simp at h
  | case4 => simp at h
  | case5 c rest _ _ ih => rw [ih (by simp_all)]; rfl

theorem asciiDigits_eq_self (h : ∀ c ∈ t, c ∈ numberCharacters) : asciiDigits t = t := by
  have hc : ∀ c ∈ numberCharacters, asciiDigits [c] = [c] :=
    forall_mem_numberCharacters.2 (by decide)
  induction t with
  | nil => rfl
  | cons c r ih =>
    have hr := ih fun d hd => h d (List.mem_cons_of_mem c hd)
    show asciiDigits [c] ++ asciiDigits r = c :: r
    rw [hc c (h c List.mem_cons_self), hr]
    rfl

theorem splitSign_eq_self (h : ∀ c ∈ t, c ∈ numberCharacters) : splitSign t = (false, t) := by
  unfold splitSign
  split
  · exact absurd (h '-' List.mem_cons_self) (by decide)
  · exact absurd (h '+' List.mem_cons_self) (by decide)
  · rfl

/-- Text of number characters goes to the reader of unsigned numbers as it is. -/
theorem ofText?_eq_unsigned? (h : ∀ c ∈ t, c ∈ numberCharacters) :
    ofText? t = unsigned? false t := by
  have hw : ∀ c ∈ t, Text.isWhiteSpace c = false := fun c hc => not_isWhiteSpace_of_mem c (h c hc)
  have hs : '_' ∉ t := fun hm => absurd (h '_' hm) (by decide)
  unfold ofText?
  rw [trimmed_eq_self hw, asciiDigits_eq_self h, withoutSeparators?_eq_self hs, Option.bind_some,
    splitSign_eq_self h]

/-- No word for infinity or for no number is made of number characters. -/
theorem unsigned?_eq_ofDigits {whole fraction rest : Text}
    (h : ∀ c ∈ t, c ∈ numberCharacters) (hw : t.takeWhile Char.isDigit = whole)
    (hne : whole ≠ [])
    (hr : t.dropWhile Char.isDigit = rest)
    (hf : rest = [] ∧ fraction = [] ∨ rest = '.' :: fraction ∧ ∀ c ∈ fraction, c.isDigit = true) :
    unsigned? false t = some (ofDigits false whole fraction) := by
  have hl : t.map Char.toLower = t := by
    rw [List.map_congr_left (g := id) fun c hc => toLower_of_mem c (h c hc), List.map_id]
  have hi : t ≠ "inf".toList ∧ t ≠ "infinity".toList := by
    constructor <;> rintro rfl <;> exact absurd (h 'i' (by decide)) (by decide)
  have hn : t ≠ "nan".toList := by
    rintro rfl
    exact absurd (h 'n' (by decide)) (by decide)
  unfold unsigned?
  simp only [hl, hi.1, hi.2, hn, hw, hr, or_self, if_false]
  rcases hf with ⟨rfl, rfl⟩ | ⟨rfl, hd⟩
  · simp [hne, exponent?]
  · have ht := Text.takeWhile_append_of_stopsRun hd Text.stopsRun_nil
    have hdr := Text.dropWhile_append_of_stopsRun hd Text.stopsRun_nil
    rw [List.append_nil] at ht hdr
    simp [ht, hdr, hne, exponent?]

/-- The value of a number lexeme, read as numeric text, is the value of its digits. -/
theorem ofText?_number {whole : Text} {fraction : Option Text}
    (h : (Piece.number whole fraction).WellFormed) :
    ofText? (Piece.number whole fraction).text = some (Piece.numberValue whole fraction) := by
  obtain ⟨hw, hf⟩ := h
  have hwm : ∀ c ∈ whole, c ∈ numberCharacters := fun c hc => mem_numberCharacters (hw.2 c hc)
  have hwd : ∀ c ∈ whole, c.isDigit = true := fun c hc => isDigit_eq ▸ hw.2 c hc
  cases fraction with
  | none =>
    have ht := Text.takeWhile_append_of_stopsRun hwd Text.stopsRun_nil
    have hd := Text.dropWhile_append_of_stopsRun hwd Text.stopsRun_nil
    rw [List.append_nil] at ht hd
    rw [Piece.text, ofText?_eq_unsigned? hwm]
    exact unsigned?_eq_ofDigits hwm ht hw.1 hd (.inl ⟨rfl, rfl⟩)
  | some f =>
    have hfd : ∀ c ∈ f, isDigit c = true := (hf f rfl).2
    have hm : ∀ c ∈ whole ++ '.' :: f, c ∈ numberCharacters := by
      intro c hc
      rcases List.mem_append.1 hc with hc | _ | ⟨_, hc⟩
      · exact hwm c hc
      · decide
      · exact mem_numberCharacters (hfd c hc)
    have hs : Text.StopsRun Char.isDigit ('.' :: f) := Text.stopsRun_cons.2 rfl
    have ht := Text.takeWhile_append_of_stopsRun hwd hs
    have hd := Text.dropWhile_append_of_stopsRun hwd hs
    rw [Piece.text, ofText?_eq_unsigned? hm]
    exact unsigned?_eq_ofDigits hm ht hw.1 hd (.inr ⟨rfl, fun c hc => isDigit_eq ▸ hfd c hc⟩)

end Binary64

end ScriptLexer
