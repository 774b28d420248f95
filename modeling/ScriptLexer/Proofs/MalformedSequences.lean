import ScriptLexer.Proofs.MalformedBytes

/-! # Characters and malformed sequences

Bytes are read as the bytes of characters, with malformed sequences between them. Where no
character's bytes stand, a malformed sequence reaches as far as some character's bytes could begin
like it, and is one byte if none begin so. There is one way only to read bytes like that, and nothing
in it speaks of first bytes and what they announce. Decoding is this reading, with the character for
it in place of each malformed sequence; and bytes encode a text exactly if none of them is malformed. -/

namespace ScriptLexer.Utf8

/-- The bytes encode a text. -/
def IsWellFormed (bytes : Bytes) : Prop :=
  ∃ t, encode t = bytes

/-- A stretch of bytes that is read at once. -/
inductive Sequence where
  | character (c : Char)
  | malformed (bad : Bytes)
deriving DecidableEq, Repr

/-- The character that a sequence becomes. -/
def Sequence.char : Sequence → Char
  | character c => c
  | malformed _ => replacement

/-- The text that sequences become. -/
def text (qs : List Sequence) : Text :=
  qs.map Sequence.char

/-- The bytes `bad` are malformed in front of `after`: no character's bytes stand there, and `bad` has
all the bytes with which those of some character could begin, or is one byte. -/
structure IsMalformed (bad after : Bytes) : Prop where
  ne_nil : bad ≠ []
  no_character : ∀ c, ¬ encodeChar c <+: bad ++ after
  begins : bad.length = 1 ∨ ∃ c, bad <+: encodeChar c
  longest : ∀ c start, start <+: bad ++ after → start <+: encodeChar c → start.length ≤ bad.length

/-- The bytes are read as these sequences. -/
inductive IsReading : Bytes → List Sequence → Prop
  | nil : IsReading [] []
  | character (c : Char) {rest : Bytes} {qs : List Sequence} :
      IsReading rest qs → IsReading (encodeChar c ++ rest) (.character c :: qs)
  | malformed {bad rest : Bytes} {qs : List Sequence} :
      IsMalformed bad rest → IsReading rest qs → IsReading (bad ++ rest) (.malformed bad :: qs)

section

variable {c : Char} {b : UInt8} {n low high : Nat} {bytes following rest start : Bytes} {head : Head}
  {qs : List Sequence}

/-! ## Decoding step by step -/

theorem decode_eq_nil_iff : decode bytes = [] ↔ bytes = [] := by
  cases bytes with
  | nil => simp [decode_nil]
  | cons b rest =>
    cases hh : head? b.toNat with
    | none => simp [decode_cons_of_head?_eq_none hh]
    | some head => simp [decode_cons_of_head? hh rfl]

/-- Different characters do not begin with the same bytes. -/
theorem encodeChar_append_inj {d : Char} {rest' : Bytes}
    (h : encodeChar c ++ rest = encodeChar d ++ rest') : c = d ∧ rest = rest' := by
  have hd := congrArg decode h
  rw [decode_encodeChar_append, decode_encodeChar_append] at hd
  obtain ⟨rfl, -⟩ := List.cons.inj hd
  exact ⟨rfl, List.append_cancel_left h⟩

/-! ## The bytes of a character -/

theorem encodeChar_ne_nil (c : Char) : encodeChar c ≠ [] := by
  unfold encodeChar
  dsimp only
  split_ifs <;> exact List.cons_ne_nil _ _

/-- The bytes of a character are a first byte and all the bytes that it announces. -/
theorem exists_head_of_encodeChar (h : encodeChar c = b :: following) :
    ∃ head, head? b.toNat = some head ∧ following.length = head.following ∧
      continuation head.following head.low head.high following = following := by
  have hd := decode_encodeChar_append [] c
  rw [List.append_nil, h, decode_nil] at hd
  -- The one character that decodes to what malformed bytes become has three bytes like any other.
  have hr : c = replacement → b = 0xEF ∧ following = [0xBF, 0xBD] := by
    rintro rfl
    exact List.cons.inj (h.symm.trans (by decide))
  cases hh : head? b.toNat with
  | none =>
    rw [decode_cons_of_head?_eq_none hh] at hd
    rw [(hr (List.cons.inj hd).1.symm).1] at hh
    cases hh
  | some head =>
    refine ⟨head, rfl, ?_⟩
    generalize hf : continuation head.following head.low head.high following = taken
    rw [decode_cons_of_head? hh hf] at hd
    obtain ⟨hc, hn⟩ := List.cons.inj hd
    -- Nothing is left behind what the first byte takes with it.
    obtain ⟨left, hl⟩ := hf ▸ continuation_isPrefix head.following head.low head.high following
    obtain rfl : left = [] := by
      rw [← hl, List.drop_left] at hn
      exact decode_eq_nil_iff.1 hn
    rw [List.append_nil] at hl
    refine ⟨?_, hl⟩
    split at hc
    · next hlen => rw [← hl, hlen]
    · obtain ⟨rfl, rfl⟩ := hr hc.symm
      cases hh
      rfl

/-- A first byte beyond ASCII is its mark and the highest bits of the code point. -/
theorem toNat_eq_of_head? (hb : 0x80 ≤ n) (h : head? n = some head) :
    (head.following = 1 → n = 0xC0 + head.bits) ∧ (head.following = 2 → n = 0xE0 + head.bits) ∧
      (head.following = 3 → n = 0xF0 + head.bits) := by
  unfold head? at h
  rw [if_neg (by omega)] at h
  repeat' split at h
  all_goals cases h
  all_goals dsimp only; omega

theorem ofNat_eq (h : n = b.toNat) : UInt8.ofNat n = b := by
  rw [h, UInt8.ofNat_toNat]

theorem encodeChar_ofNat (hv : n.isValidChar) :
    encodeChar (Char.ofNat n) =
      if n < 0x80 then [UInt8.ofNat n]
      else if n < 0x800 then [UInt8.ofNat (0xC0 + n / 64), tail n]
      else if n < 0x10000 then [UInt8.ofNat (0xE0 + n / 4096), tail (n / 64), tail n]
      else [UInt8.ofNat (0xF0 + n / 262144), tail (n / 4096), tail (n / 64), tail n] := by
  unfold encodeChar
  rw [toNat_ofNat hv]
  rfl

/-- A first byte and all the bytes that it announces are the bytes of the character that they make. -/
theorem encodeChar_codePoint (hh : head? b.toNat = some head)
    (hc : continuation head.following head.low head.high rest = following)
    (hl : following.length = head.following) :
    encodeChar (Char.ofNat (codePoint head.bits following)) = b :: following := by
  by_cases hb : b.toNat < 0x80
  · rw [head?_one hb] at hh
    cases hh
    obtain rfl : following = [] := List.length_eq_zero_iff.1 hl
    have hv : b.toNat.isValidChar := .inl (by omega)
    rw [codePoint, List.foldl_nil, encodeChar_ofNat hv, if_pos hb, UInt8.ofNat_toNat]
  · have hb : 0x80 ≤ b.toNat := Nat.le_of_not_lt hb
    obtain ⟨hlow, hhigh, hcases⟩ := head?_cases hb hh
    obtain ⟨hone, htwo, hthree⟩ := toNat_eq_of_head? hb hh
    have hv := (bounds_codePoint hb hh hc hl).2
    generalize hn : codePoint head.bits following = n at hv
    rw [encodeChar_ofNat hv]
    cases following with
    | nil =>
      rw [List.length_nil] at hl
      omega
    | cons x xs =>
      obtain ⟨hx, hxs⟩ := bounds_of_continuation_eq hc
      simp only [codePoint, List.foldl_cons] at hn
      -- There are one, two or three bytes, as the first one announces.
      rcases xs with _ | ⟨y, _ | ⟨z, _ | ⟨w, ws⟩⟩⟩
      · simp only [List.length_cons, List.length_nil, List.foldl_nil] at hl hn
        rw [if_neg (by omega), if_pos (by omega), tail, ofNat_eq (b := b) (by omega),
          ofNat_eq (b := x) (by omega)]
      · have hy := hxs y (by simp)
        simp only [List.length_cons, List.length_nil, List.foldl_cons, List.foldl_nil] at hl hn
        rw [if_neg (by omega), if_neg (by omega), if_pos (by omega), tail, tail,
          ofNat_eq (b := b) (by omega), ofNat_eq (b := x) (by omega), ofNat_eq (b := y) (by omega)]
      · have hy := hxs y (by simp)
        have hz := hxs z (by simp)
        simp only [List.length_cons, List.length_nil, List.foldl_cons, List.foldl_nil] at hl hn
        rw [if_neg (by omega), if_neg (by omega), if_neg (by omega), tail, tail, tail,
          ofNat_eq (b := b) (by omega), ofNat_eq (b := x) (by omega), ofNat_eq (b := y) (by omega),
          ofNat_eq (b := z) (by omega)]
      · simp only [List.length_cons] at hl
        omega

/-! ## Where a character could begin -/

/-- What a character's bytes begin with is taken with its first byte. -/
theorem isPrefix_continuation (hf : continuation n low high following = following)
    (hs : start <+: following) (hr : start <+: rest) :
    start <+: continuation n low high rest := by
  induction start generalizing n low high following rest with
  | nil => exact List.nil_prefix
  | cons x start ih =>
    obtain ⟨fs, rfl⟩ := hs
    obtain ⟨rs, rfl⟩ := hr
    rw [List.cons_append] at hf ⊢
    cases n with
    | zero =>
      rw [continuation_zero] at hf
      cases hf
    | succ n =>
      rw [continuation] at hf ⊢
      split at hf
      · next hx =>
        rw [if_pos hx, List.prefix_cons_inj]
        exact ih (List.cons.inj hf).2 (List.prefix_append _ _) (List.prefix_append _ _)
      · cases hf

/-- What a first byte takes with it can be completed to all that it announces. -/
theorem exists_continuation_append (hl : low ≤ high) (hh : high < 256) (bytes : Bytes) :
    ∃ more, continuation n low high (continuation n low high bytes ++ more) =
        continuation n low high bytes ++ more ∧
      (continuation n low high bytes ++ more).length = n := by
  induction n generalizing low high bytes with
  | zero => exact ⟨[], by simp [continuation_zero], by simp [continuation_zero]⟩
  | succ n ih =>
    -- With nothing taken so far, the least byte of the range comes first.
    have hnil : ∃ more, continuation (n + 1) low high more = more ∧ more.length = n + 1 := by
      obtain ⟨more, hm, hlen⟩ := @ih 0x80 0xBF (by decide) (by decide) []
      have he : continuation n 0x80 0xBF [] = [] := by cases n <;> rfl
      rw [he, List.nil_append] at hm hlen
      have hx : (UInt8.ofNat low).toNat = low := UInt8.toNat_ofNat_of_lt (Nat.lt_of_le_of_lt hl hh)
      refine ⟨UInt8.ofNat low :: more, ?_, by rw [List.length_cons, hlen]⟩
      rw [continuation_cons (by omega) (by omega), hm]
    cases bytes with
    | nil => simpa [continuation] using hnil
    | cons x rest =>
      by_cases hx : low ≤ x.toNat ∧ x.toNat ≤ high
      · obtain ⟨more, hm, hlen⟩ := @ih 0x80 0xBF (by decide) (by decide) rest
        refine ⟨more, ?_, ?_⟩
        · rw [continuation_cons hx.1 hx.2, List.cons_append, continuation_cons hx.1 hx.2, hm]
        · rw [continuation_cons hx.1 hx.2, List.cons_append, List.length_cons, hlen]
      · have he : continuation (n + 1) low high (x :: rest) = [] := by
          rw [continuation, if_neg hx]
        simpa only [he, List.nil_append] using hnil

theorem head?_range {b : Nat} (h : head? b = some head) : head.low ≤ head.high ∧ head.high < 256 := by
  unfold head? at h
  repeat' split at h
  all_goals cases h
  all_goals dsimp only; omega

/-- Some character begins with a first byte and what it takes with it. -/
theorem exists_isPrefix_encodeChar (hh : head? b.toNat = some head) (rest : Bytes) :
    ∃ c, b :: continuation head.following head.low head.high rest <+: encodeChar c := by
  obtain ⟨hl, hu⟩ := head?_range hh
  obtain ⟨more, hm, hlen⟩ := exists_continuation_append (n := head.following) hl hu rest
  have hc := encodeChar_codePoint hh hm hlen
  rw [← List.cons_append] at hc
  exact ⟨_, more, hc.symm⟩

/-- What a character has in common with the bytes at a place is taken with its first byte. -/
theorem isPrefix_continuation_of_encodeChar (hh : head? b.toNat = some head)
    (hc : b :: start <+: encodeChar c) (hr : start <+: rest) :
    start <+: continuation head.following head.low head.high rest := by
  obtain ⟨more, hm⟩ := hc
  obtain ⟨head', hh', -, hf⟩ := exists_head_of_encodeChar hm.symm
  obtain rfl := Option.some.inj (hh.symm.trans hh')
  exact isPrefix_continuation hf (List.prefix_append start more) hr

theorem length_continuation_le (n low high : Nat) (bytes : Bytes) :
    (continuation n low high bytes).length ≤ n := by
  fun_induction continuation n low high bytes with
  | case1 low high n b rest _ ih => exact Nat.succ_le_succ ih
  | case2 => exact Nat.zero_le _
  | case3 => exact Nat.zero_le _

/-! ## Malformed sequences -/

/-- A byte that no character begins with is malformed by itself. -/
theorem isMalformed_of_head?_eq_none (hh : head? b.toNat = none) (rest : Bytes) :
    IsMalformed [b] rest := by
  have hno : ∀ c tail, ¬ b :: tail <+: encodeChar c := by
    rintro c tail ⟨more, hm⟩
    obtain ⟨head, hsome, -⟩ := exists_head_of_encodeChar hm.symm
    rw [hh] at hsome
    cases hsome
  refine ⟨List.cons_ne_nil b [], fun c hc => ?_, .inl rfl, fun c start hs hc => ?_⟩
  · obtain ⟨x, xs, hx⟩ := List.exists_cons_of_ne_nil (encodeChar_ne_nil c)
    rw [hx] at hc
    obtain ⟨rfl, -⟩ := List.cons_prefix_cons.1 hc
    exact hno c xs ⟨[], by rw [hx, List.append_nil]⟩
  · rcases List.prefix_cons_iff.1 hs with rfl | ⟨start', rfl, -⟩
    · exact Nat.zero_le _
    · exact absurd hc (hno c start')

/-- A first byte is malformed with what it takes with it, if that is less than it announces. -/
theorem isMalformed_of_length_ne (hh : head? b.toNat = some head)
    (hf : continuation head.following head.low head.high (following ++ rest) = following)
    (hl : following.length ≠ head.following) : IsMalformed (b :: following) rest := by
  have hle : following.length ≤ head.following := hf ▸ length_continuation_le _ _ _ _
  refine ⟨List.cons_ne_nil b following, fun c hc => ?_, .inr ?_, fun c start hs hc => ?_⟩
  · -- A whole character would be taken.
    obtain ⟨x, xs, hx⟩ := List.exists_cons_of_ne_nil (encodeChar_ne_nil c)
    rw [hx] at hc
    obtain ⟨rfl, hxs⟩ := List.cons_prefix_cons.1 hc
    obtain ⟨head', hh', hlen, -⟩ := exists_head_of_encodeChar hx
    obtain rfl := Option.some.inj (hh.symm.trans hh')
    have hp := isPrefix_continuation_of_encodeChar hh ⟨[], by rw [hx, List.append_nil]⟩ hxs
    have hxl := (hf ▸ hp).length_le
    omega
  · rw [← hf]
    exact exists_isPrefix_encodeChar hh _
  · rcases List.prefix_cons_iff.1 hs with rfl | ⟨start', rfl, hs'⟩
    · exact Nat.zero_le _
    · have hp := isPrefix_continuation_of_encodeChar hh hc hs'
      exact Nat.succ_le_succ (hf ▸ hp).length_le

theorem IsMalformed.length_le {bad bad' rest' : Bytes} (h : IsMalformed bad rest)
    (h' : IsMalformed bad' rest') (he : bad ++ rest = bad' ++ rest') : bad.length ≤ bad'.length := by
  rcases h.begins with hone | ⟨c, hc⟩
  · rw [hone]
    exact List.length_pos_iff.2 h'.ne_nil
  · exact h'.longest c bad (he ▸ List.prefix_append bad rest) hc

/-! ## Readings -/

/-- There is a reading, and it is what decoding gives. -/
theorem exists_isReading (bytes : Bytes) : ∃ qs, IsReading bytes qs ∧ decode bytes = text qs := by
  -- By induction on the length: a first byte takes others with it.
  induction hn : bytes.length using Nat.strong_induction_on generalizing bytes with
  | _ n ih =>
    cases bytes with
    | nil => exact ⟨[], .nil, decode_nil⟩
    | cons b rest =>
      rw [List.length_cons] at hn
      cases hh : head? b.toNat with
      | none =>
        obtain ⟨qs, hr, hd⟩ := ih rest.length (by omega) rest rfl
        refine ⟨_, .malformed (isMalformed_of_head?_eq_none hh rest) hr, ?_⟩
        rw [decode_cons_of_head?_eq_none hh, hd]
        rfl
      | some head =>
        obtain ⟨after, ha⟩ := continuation_isPrefix head.following head.low head.high rest
        generalize hf : continuation head.following head.low head.high rest = following at ha
        subst ha
        rw [List.length_append] at hn
        obtain ⟨qs, hr, hd⟩ := ih after.length (by omega) after rfl
        have hdec := decode_cons_of_head? hh hf
        rw [List.drop_left, hd] at hdec
        by_cases hl : following.length = head.following
        · rw [if_pos hl] at hdec
          have hc := encodeChar_codePoint hh hf hl
          refine ⟨.character (Char.ofNat (codePoint head.bits following)) :: qs, ?_, hdec⟩
          rw [← List.cons_append, ← hc]
          exact .character _ hr
        · rw [if_neg hl] at hdec
          exact ⟨_, .malformed (isMalformed_of_length_ne hh hf hl) hr, hdec⟩

/-- There is no other reading. -/
theorem IsReading.eq {qs' : List Sequence} (h : IsReading bytes qs) (h' : IsReading bytes qs') :
    qs = qs' := by
  induction h generalizing qs' with
  | nil =>
    generalize he : ([] : Bytes) = bytes at h'
    cases h' with
    | nil => rfl
    | character c => simp [encodeChar_ne_nil] at he
    | malformed hm => simp [hm.ne_nil] at he
  | @character c rest qs hr ih =>
    generalize he : encodeChar c ++ rest = bytes at h'
    cases h' with
    | nil => simp [encodeChar_ne_nil] at he
    | character d hr' =>
      obtain ⟨rfl, rfl⟩ := encodeChar_append_inj he
      rw [ih hr']
    | malformed hm => exact absurd (he ▸ List.prefix_append _ _) (hm.no_character c)
  | @malformed bad rest qs hm hr ih =>
    generalize he : bad ++ rest = bytes at h'
    cases h' with
    | nil => simp [hm.ne_nil] at he
    | character d hr' => exact absurd (he ▸ List.prefix_append _ _) (hm.no_character d)
    | malformed hm' hr' =>
      have hl := Nat.le_antisymm (hm.length_le hm' he) (hm'.length_le hm he.symm)
      obtain ⟨rfl, rfl⟩ := List.append_inj he hl
      rw [ih hr']

theorem IsReading.decode_eq (h : IsReading bytes qs) : decode bytes = text qs := by
  obtain ⟨qs', h', hd⟩ := exists_isReading bytes
  rw [hd, h.eq h']

/-! ## Bytes that encode a text -/

theorem isReading_encode (t : Text) : IsReading (encode t) (t.map .character) := by
  induction t with
  | nil => exact .nil
  | cons c t ih => exact .character c ih

theorem IsReading.encode_text (h : IsReading bytes qs) (hq : ∀ bad, .malformed bad ∉ qs) :
    encode (text qs) = bytes := by
  induction h with
  | nil => rfl
  | character c _ ih => exact congrArg _ (ih fun bad hb => hq bad (List.mem_cons_of_mem _ hb))
  | malformed => exact absurd List.mem_cons_self (hq _)

/-- Bytes encode a text exactly if nothing in them is malformed. -/
theorem IsReading.isWellFormed_iff (h : IsReading bytes qs) :
    IsWellFormed bytes ↔ ∀ bad, .malformed bad ∉ qs := by
  refine ⟨?_, fun hq => ⟨_, h.encode_text hq⟩⟩
  rintro ⟨t, rfl⟩ bad hb
  rw [h.eq (isReading_encode t)] at hb
  obtain ⟨c, -, hc⟩ := List.mem_map.1 hb
  cases hc

theorem isWellFormed_iff_encode_decode : IsWellFormed bytes ↔ encode (decode bytes) = bytes := by
  refine ⟨?_, fun h => ⟨_, h⟩⟩
  rintro ⟨t, rfl⟩
  rw [decode_encode]

instance (bytes : Bytes) : Decidable (IsWellFormed bytes) :=
  decidable_of_iff _ isWellFormed_iff_encode_decode.symm

end

end ScriptLexer.Utf8
