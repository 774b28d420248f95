import ScriptLexer.Encoding.Utf8

/-! # Reading back what UTF-8 encodes

Every character has one to four bytes. The first announces the others and the range of the next one,
the others are six bits each, and the bits together are the code point. So the bytes of a character
are read as that character whatever comes behind them, and a text is read back from its bytes: line
ends, marks and NUL like everything else. -/

namespace ScriptLexer.Utf8

/-- The byte that carries the lowest six bits of `n`. -/
def tail (n : Nat) : UInt8 :=
  UInt8.ofNat (0x80 + n % 64)

theorem toNat_tail (n : Nat) : (tail n).toNat = 0x80 + n % 64 :=
  UInt8.toNat_ofNat_of_lt (by change _ < 256; omega)

theorem toNat_sub_tail (n : Nat) : (tail n).toNat - 0x80 = n % 64 := by
  rw [toNat_tail, Nat.add_sub_cancel_left]

/-- A code point is neither a surrogate nor too large. -/
theorem toNat_bounds (c : Char) : c.toNat < 0xD800 ∨ 0xDFFF < c.toNat ∧ c.toNat < 0x110000 :=
  c.valid

/-! ## Continuations -/

theorem continuation_cons {n low high : Nat} {b : UInt8} {rest : Bytes} (hl : low ≤ b.toNat)
    (hh : b.toNat ≤ high) :
    continuation (n + 1) low high (b :: rest) = b :: continuation n 0x80 0xBF rest := by
  rw [continuation, if_pos ⟨hl, hh⟩]

theorem continuation_zero (low high : Nat) (rest : Bytes) : continuation 0 low high rest = [] := by
  simp [continuation]

theorem continuation_tail (m : Nat) {n : Nat} {rest : Bytes} :
    continuation (n + 1) 0x80 0xBF (tail m :: rest) = tail m :: continuation n 0x80 0xBF rest := by
  refine continuation_cons ?_ ?_ <;> rw [toNat_tail] <;> omega

/-- A first byte with all the bytes that it announces is one character. -/
theorem decode_append {b : Nat} {head : Head} {following rest : Bytes} (hb : b < 256)
    (hh : head? b = some head) (hl : following.length = head.following)
    (hc : continuation head.following head.low head.high (following ++ rest) = following) :
    decode (UInt8.ofNat b :: following ++ rest) =
      Char.ofNat (codePoint head.bits following) :: decode rest := by
  have hn : (UInt8.ofNat b).toNat = b := UInt8.toNat_ofNat_of_lt hb
  rw [List.cons_append, decode]
  simp only [hn, hh, hc, hl, if_true]
  rw [List.drop_left' hl]

/-! ## First bytes -/

theorem head?_one {n : Nat} (h : n < 0x80) : head? n = some ⟨0, 0x80, 0xBF, n⟩ := by
  rw [head?, if_pos h]

theorem head?_two {q : Nat} (hl : 2 ≤ q) (hu : q < 32) :
    head? (0xC0 + q) = some ⟨1, 0x80, 0xBF, q⟩ := by
  rw [head?, if_neg (by omega), if_neg (by omega), if_pos (by omega), Nat.add_sub_cancel_left]

/-- The next byte keeps out what has a shorter form, and surrogates. -/
theorem head?_three {q : Nat} (h : q < 16) : head? (0xE0 + q) =
    some ⟨2, if q = 0 then 0xA0 else 0x80, if q = 0xD then 0x9F else 0xBF, q⟩ := by
  unfold head?
  grind

/-- The next byte keeps out what has a shorter form, and what lies beyond the last code point. -/
theorem head?_four {q : Nat} (h : q < 5) : head? (0xF0 + q) =
    some ⟨3, if q = 0 then 0x90 else 0x80, if q = 4 then 0x8F else 0xBF, q⟩ := by
  unfold head?
  grind

/-! ## Characters -/

variable {n : Nat} (rest : Bytes)

theorem decode_one (h : n < 0x80) :
    decode (UInt8.ofNat n :: rest) = Char.ofNat n :: decode rest := by
  have hc : continuation 0 0x80 0xBF ([] ++ rest) = [] := continuation_zero _ _ _
  exact decode_append (by omega) (head?_one h) rfl hc

theorem decode_two (hl : 0x80 ≤ n) (hu : n < 0x800) :
    decode (UInt8.ofNat (0xC0 + n / 64) :: tail n :: rest) = Char.ofNat n :: decode rest := by
  have hn : codePoint (n / 64) [tail n] = n := by
    simp only [codePoint, List.foldl, toNat_sub_tail]
    omega
  have hh := head?_two (q := n / 64) (by omega) (by omega)
  have hc : continuation 1 0x80 0xBF ([tail n] ++ rest) = [tail n] := by
    rw [List.cons_append, continuation_tail, continuation_zero]
  have hd := decode_append (by omega) hh rfl hc
  rwa [hn] at hd

theorem decode_three (hl : 0x800 ≤ n) (hu : n < 0x10000) (hs : n < 0xD800 ∨ 0xDFFF < n) :
    decode (UInt8.ofNat (0xE0 + n / 4096) :: tail (n / 64) :: tail n :: rest) =
      Char.ofNat n :: decode rest := by
  have hn : codePoint (n / 4096) [tail (n / 64), tail n] = n := by
    simp only [codePoint, List.foldl, toNat_sub_tail]
    omega
  have hh := head?_three (q := n / 4096) (by omega)
  have hc : continuation 2 (if n / 4096 = 0 then 0xA0 else 0x80)
      (if n / 4096 = 0xD then 0x9F else 0xBF) ([tail (n / 64), tail n] ++ rest) =
      [tail (n / 64), tail n] := by
    rw [List.cons_append, continuation_cons, List.cons_append, continuation_tail,
      continuation_zero]
    · rw [toNat_tail]
      split <;> omega
    · rw [toNat_tail]
      split <;> omega
  have hd := decode_append (by omega) hh rfl hc
  rwa [hn] at hd

theorem decode_four (hl : 0x10000 ≤ n) (hu : n < 0x110000) :
    decode (UInt8.ofNat (0xF0 + n / 262144) :: tail (n / 4096) :: tail (n / 64) :: tail n :: rest) =
      Char.ofNat n :: decode rest := by
  have hn : codePoint (n / 262144) [tail (n / 4096), tail (n / 64), tail n] = n := by
    simp only [codePoint, List.foldl, toNat_sub_tail]
    omega
  have hh := head?_four (q := n / 262144) (by omega)
  have hc : continuation 3 (if n / 262144 = 0 then 0x90 else 0x80)
      (if n / 262144 = 4 then 0x8F else 0xBF) ([tail (n / 4096), tail (n / 64), tail n] ++ rest) =
      [tail (n / 4096), tail (n / 64), tail n] := by
    rw [List.cons_append, continuation_cons, List.cons_append, continuation_tail,
      List.cons_append, continuation_tail, continuation_zero]
    · rw [toNat_tail]
      split <;> omega
    · rw [toNat_tail]
      split <;> omega
  have hd := decode_append (by omega) hh rfl hc
  rwa [hn] at hd

/-- The bytes of a character are read as that character. -/
theorem decode_encodeChar_append (c : Char) :
    decode (encodeChar c ++ rest) = c :: decode rest := by
  have hb := toNat_bounds c
  have hc : Char.ofNat c.toNat = c := Char.ofNat_toNat c
  unfold encodeChar
  generalize c.toNat = n at hb hc
  rw [← hc]
  dsimp only
  split
  · next h => exact decode_one rest h
  split
  · exact decode_two rest (by omega) (by omega)
  split
  · exact decode_three rest (by omega) (by omega) (by omega)
  · exact decode_four rest (by omega) (by omega)

/-- A text is read back from the bytes that encode it. -/
theorem decode_encode (t : Text) : decode (encode t) = t := by
  induction t with
  | nil => rw [encode, List.flatMap_nil, decode]
  | cons c t ih =>
    have he : encode (c :: t) = encodeChar c ++ encode t := List.flatMap_cons
    rw [he, decode_encodeChar_append, ih]

end ScriptLexer.Utf8
