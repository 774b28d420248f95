import ScriptLexer.Text.Quoted

/-! # Quoted text can be read back

Every escape tells where it ends and which character it stands for, and none starts with the quote
in use. So a quoted text determines the text and where it ends, whatever is written behind it; and
it consists of printable characters only, whatever the text is. -/

namespace ScriptLexer.Text

/-! ## Hexadecimal digits -/

def hexDigits : Text :=
  ['0', '1', '2', '3', '4', '5', '6', '7', '8', '9', 'a', 'b', 'c', 'd', 'e', 'f']

/-- The number that hexadecimal digits denote. -/
def hexValue (t : Text) : Nat :=
  t.foldl (fun n c => 16 * n + hexDigits.idxOf c) 0

theorem digitChar_spec : ∀ d < 16, d.digitChar ∈ hexDigits ∧ hexDigits.idxOf d.digitChar = d := by
  decide

theorem hexValue_toDigits (n : Nat) : hexValue (Nat.toDigits 16 n) = n := by
  induction n using Nat.strongRecOn with
  | ind n ih =>
    rw [Nat.toDigits_eq_if (by decide)]
    by_cases h : n < 16
    · rw [if_pos h]
      simp [hexValue, (digitChar_spec n h).2]
    · have hd := (digitChar_spec (n % 16) (by omega)).2
      have hn := ih (n / 16) (by omega)
      rw [hexValue] at hn
      rw [if_neg h, hexValue, List.foldl_append, hn]
      simp only [List.foldl_cons, List.foldl_nil, hd]
      omega

theorem mem_hexDigits {n : Nat} {c : Char} (h : c ∈ Nat.toDigits 16 n) : c ∈ hexDigits := by
  induction n using Nat.strongRecOn with
  | ind n ih =>
    rw [Nat.toDigits_eq_if (by decide)] at h
    by_cases hn : n < 16
    · rw [if_pos hn, List.mem_singleton] at h
      exact h ▸ (digitChar_spec n hn).1
    · rw [if_neg hn, List.mem_append, List.mem_singleton] at h
      rcases h with h | h
      · exact ih (n / 16) (by omega) h
      · exact h ▸ (digitChar_spec (n % 16) (by omega)).1

/-- Zeros in front do not count. -/
theorem hexValue_ofNatHex (width n : Nat) : hexValue (ofNatHex width n) = n := by
  have hz : ∀ k, (List.replicate k '0').foldl (fun n c => 16 * n + hexDigits.idxOf c) 0 = 0 := by
    intro k
    induction k with
    | zero => rfl
    | succ k ih => exact ih
  have hn := hexValue_toDigits n
  rw [hexValue] at hn
  rw [ofNatHex, hexValue, List.foldl_append, hz, hn]

theorem length_ofNatHex {width n : Nat} (h : (Nat.toDigits 16 n).length ≤ width) :
    (ofNatHex width n).length = width := by
  simp only [ofNatHex, List.length_append, List.length_replicate]
  omega

/-! ## Escapes -/

/-- The first character of quoted text, with what is behind its escape. -/
def unescape : Text → Option (Char × Text)
  | '\\' :: 't' :: rest => some ('\t', rest)
  | '\\' :: 'n' :: rest => some ('\n', rest)
  | '\\' :: 'r' :: rest => some ('\r', rest)
  | '\\' :: 'x' :: rest => some (Char.ofNat (hexValue (rest.take 2)), rest.drop 2)
  | '\\' :: 'u' :: rest => some (Char.ofNat (hexValue (rest.take 4)), rest.drop 4)
  | '\\' :: 'U' :: rest => some (Char.ofNat (hexValue (rest.take 8)), rest.drop 8)
  | '\\' :: c :: rest => some (c, rest)
  | c :: rest => some (c, rest)
  | [] => none

theorem codePoint_ofNatHex {width : Nat} {c : Char} (h : (Nat.toDigits 16 c.toNat).length ≤ width)
    (rest : Text) :
    (Char.ofNat (hexValue ((ofNatHex width c.toNat ++ rest).take width)),
      (ofNatHex width c.toNat ++ rest).drop width) = (c, rest) := by
  have hl := length_ofNatHex h
  rw [List.take_left' hl, List.drop_left' hl, hexValue_ofNatHex, Char.ofNat_toNat]

/-- The two characters that quoted text can stand between. -/
def IsQuoteMark (mark : Char) : Prop :=
  mark = '\x27' ∨ mark = '\x22'

theorem isQuoteMark_quoteMark (t : Text) : IsQuoteMark (quoteMark t) := by
  unfold quoteMark
  split
  · exact .inr rfl
  · exact .inl rfl

/-- The ways in which a character can stand in quoted text. -/
inductive EscapedAs (mark c : Char) : Text → Prop
  | plain : c ≠ mark → c ≠ '\\' → isPrintable c = true → EscapedAs mark c [c]
  | marked : IsQuoteMark c ∨ c = '\\' → EscapedAs mark c ['\\', c]
  | letter {l : Char} : (c, l) ∈ [('\t', 't'), ('\n', 'n'), ('\r', 'r')] → EscapedAs mark c ['\\', l]
  | codePoint {l : Char} {width : Nat} : (l, width) ∈ [('x', 2), ('u', 4), ('U', 8)] →
      (Nat.toDigits 16 c.toNat).length ≤ width → EscapedAs mark c ('\\' :: l :: ofNatHex width c.toNat)

theorem escapedAs_escaped {mark : Char} (hm : IsQuoteMark mark) (c : Char) :
    EscapedAs mark c (escaped mark c) := by
  unfold escaped
  by_cases h₁ : c = mark ∨ c = '\\'
  · rw [if_pos h₁]
    refine .marked (h₁.imp (fun h => ?_) id)
    rwa [h]
  obtain ⟨hc, hb⟩ := not_or.1 h₁
  rw [if_neg h₁]
  split
  · next h => exact .letter (by simp [h])
  split
  · next h => exact .letter (by simp [h])
  split
  · next h => exact .letter (by simp [h])
  split
  · next h => exact .plain hc hb h
  split
  · next h => exact .codePoint (by simp) ((Nat.length_toDigits_le_iff (by decide) (by decide)).2 h)
  split
  · next h => exact .codePoint (by simp) ((Nat.length_toDigits_le_iff (by decide) (by decide)).2 h)
  · have h : c.toNat < 0xD800 ∨ 0xDFFF < c.toNat ∧ c.toNat < 0x110000 := c.valid
    have h8 : c.toNat < 16 ^ 8 := by omega
    exact .codePoint (by simp) ((Nat.length_toDigits_le_iff (by decide) (by decide)).2 h8)

variable {mark c : Char} {s t r r' : Text}

theorem unescape_escaped (hm : IsQuoteMark mark) (c : Char) (rest : Text) :
    unescape (escaped mark c ++ rest) = some (c, rest) := by
  have h := escapedAs_escaped hm c
  revert h
  generalize escaped mark c = e
  rintro (⟨hc, hb, -⟩ | h | h | ⟨h, hl⟩)
  · simp [unescape, hb]
  · rcases h with (rfl | rfl) | rfl <;> rfl
  · simp only [List.mem_cons, Prod.mk.injEq, List.not_mem_nil, or_false] at h
    rcases h with ⟨rfl, rfl⟩ | ⟨rfl, rfl⟩ | ⟨rfl, rfl⟩ <;> rfl
  · simp only [List.mem_cons, Prod.mk.injEq, List.not_mem_nil, or_false] at h
    rcases h with ⟨rfl, rfl⟩ | ⟨rfl, rfl⟩ | ⟨rfl, rfl⟩
    all_goals exact congrArg some (codePoint_ofNatHex hl rest)

/-- An escape is not empty and does not start with the quote. -/
theorem exists_escaped_cons (hm : IsQuoteMark mark) (c : Char) :
    ∃ d rest, escaped mark c = d :: rest ∧ d ≠ mark := by
  have hb : '\\' ≠ mark := by rcases hm with rfl | rfl <;> decide
  have h := escapedAs_escaped hm c
  revert h
  generalize escaped mark c = e
  rintro (⟨hc, -, -⟩ | - | - | -)
  · exact ⟨c, [], rfl, hc⟩
  all_goals exact ⟨'\\', _, rfl, hb⟩

/-- The escapes of a text determine it, up to the quote behind them. -/
theorem flatMap_escaped_inj (hm : IsQuoteMark mark)
    (h : s.flatMap (escaped mark) ++ mark :: r = t.flatMap (escaped mark) ++ mark :: r') :
    s = t ∧ r = r' := by
  induction s generalizing t with
  | nil =>
    cases t with
    | nil => simpa using h
    | cons d t =>
      obtain ⟨e, x, he, hne⟩ := exists_escaped_cons hm d
      simp only [List.flatMap_nil, List.flatMap_cons, he, List.cons_append, List.nil_append] at h
      exact absurd (List.cons.inj h).1.symm hne
  | cons c s ih =>
    cases t with
    | nil =>
      obtain ⟨e, x, he, hne⟩ := exists_escaped_cons hm c
      simp only [List.flatMap_nil, List.flatMap_cons, he, List.cons_append, List.nil_append] at h
      exact absurd (List.cons.inj h).1 hne
    | cons d t =>
      rw [List.flatMap_cons, List.flatMap_cons, List.append_assoc, List.append_assoc] at h
      have hu := congrArg unescape h
      rw [unescape_escaped hm, unescape_escaped hm] at hu
      obtain ⟨rfl, hr⟩ := Prod.mk.inj (Option.some.inj hu)
      obtain ⟨rfl, rfl⟩ := ih hr
      exact ⟨rfl, rfl⟩

/-- A quoted text determines the text and where it ends. -/
theorem quoted_append_inj : quoted s ++ r = quoted t ++ r' ↔ s = t ∧ r = r' := by
  constructor
  · intro h
    simp only [quoted, List.cons_append, List.append_assoc, List.nil_append] at h
    obtain ⟨hq, h⟩ := List.cons.inj h
    rw [← hq] at h
    exact flatMap_escaped_inj (isQuoteMark_quoteMark s) h
  · rintro ⟨rfl, rfl⟩
    rfl

theorem quoted_inj : quoted s = quoted t ↔ s = t := by
  simpa using @quoted_append_inj s t [] []

/-! ## On one line -/

theorem isPrintable_of_mem_ofNatHex {width n : Nat} {d : Char} (h : d ∈ ofNatHex width n) :
    isPrintable d = true := by
  have hp : ∀ d ∈ hexDigits, isPrintable d = true := forall_mem_of_all (by decide)
  rcases List.mem_append.1 h with h | h
  · rw [List.eq_of_mem_replicate h]
    decide
  · exact hp d (mem_hexDigits h)

theorem IsQuoteMark.isPrintable (h : IsQuoteMark mark) : isPrintable mark = true := by
  rcases h with rfl | rfl <;> decide

theorem isPrintable_of_mem_escaped (hm : IsQuoteMark mark) {d : Char} (h : d ∈ escaped mark c) :
    isPrintable d = true := by
  have hb : Text.isPrintable '\\' = true := by decide
  have he := escapedAs_escaped hm c
  revert he h
  generalize escaped mark c = e
  rintro h (⟨-, -, hc⟩ | hc | hl | ⟨hl, -⟩)
  · exact List.mem_singleton.1 h ▸ hc
  · simp only [List.mem_cons, List.not_mem_nil, or_false] at h
    rcases h with rfl | rfl
    · exact hb
    · rcases hc with hc | rfl
      · exact hc.isPrintable
      · exact hb
  · have hp : ∀ x ∈ [('\t', 't'), ('\n', 'n'), ('\r', 'r')], Text.isPrintable x.2 = true := by decide
    simp only [List.mem_cons, List.not_mem_nil, or_false] at h
    rcases h with rfl | rfl
    · exact hb
    · exact hp _ hl
  · have hp : ∀ x ∈ [('x', 2), ('u', 4), ('U', 8)], Text.isPrintable x.1 = true := by decide
    rcases List.mem_cons.1 h with rfl | h
    · exact hb
    rcases List.mem_cons.1 h with rfl | h
    · exact hp _ hl
    · exact isPrintable_of_mem_ofNatHex h

theorem isPrintable_of_mem_quoted {d : Char} (h : d ∈ quoted t) : isPrintable d = true := by
  have hm := isQuoteMark_quoteMark t
  simp only [quoted, List.mem_append, List.mem_cons, List.mem_flatMap, List.not_mem_nil,
    or_false] at h
  rcases h with (rfl | ⟨c, -, h⟩) | rfl
  · exact hm.isPrintable
  · exact isPrintable_of_mem_escaped hm h
  · exact hm.isPrintable

end ScriptLexer.Text
