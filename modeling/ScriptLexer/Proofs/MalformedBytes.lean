import ScriptLexer.Proofs.Placement
import ScriptLexer.Proofs.ScriptFiles
import Mathlib.Data.List.Count

/-! # Malformed bytes

Whatever bytes a file has, an ASCII byte in it is read as its character. A first byte of another
character takes only bytes with it that cannot be ASCII, and what it comes to is not ASCII either,
be it a character or the one that replaces a malformed sequence. So reading starts afresh behind
each ASCII byte, and a file has the line ends that its bytes have. -/

namespace ScriptLexer

namespace Utf8

/-- The bytes and the characters of ASCII. -/
def isAsciiByte (b : UInt8) : Bool :=
  b.toNat < 0x80

def isAsciiChar (c : Char) : Bool :=
  c.toNat < 0x80

variable {n low high : Nat} {b x : UInt8} {bytes following rest : Bytes} {head : Head}

/-! ## What a first byte takes with it -/

theorem continuation_isPrefix (n low high : Nat) (bytes : Bytes) :
    continuation n low high bytes <+: bytes := by
  fun_induction continuation n low high bytes with
  | case1 low high n b rest _ ih => exact (List.prefix_cons_inj b).2 ih
  | case2 => exact List.nil_prefix
  | case3 => exact List.nil_prefix

theorem bounds_of_mem_continuation (h : x ∈ continuation n 0x80 0xBF bytes) :
    0x80 ≤ x.toNat ∧ x.toNat ≤ 0xBF := by
  generalize hl : 0x80 = low, hh : 0xBF = high at h
  fun_induction continuation n low high bytes with
  | case1 low high n b rest hb ih =>
    subst hl hh
    rcases List.mem_cons.1 h with rfl | h
    · exact hb
    · exact ih rfl rfl h
  | case2 => cases h
  | case3 => cases h

/-- The first of the bytes that follow is in the range that was announced, the others are in that
of all such bytes. -/
theorem bounds_of_continuation_eq (h : continuation n low high bytes = x :: following) :
    (low ≤ x.toNat ∧ x.toNat ≤ high) ∧ ∀ y ∈ following, 0x80 ≤ y.toNat ∧ y.toNat ≤ 0xBF := by
  unfold continuation at h
  split at h
  · split at h
    · next hb =>
      obtain ⟨rfl, rfl⟩ := List.cons.inj h
      exact ⟨hb, fun y hy => bounds_of_mem_continuation hy⟩
    · cases h
  · cases h

/-- An ASCII byte ends what a first byte takes with it. -/
theorem continuation_append_ascii (hl : 0x80 ≤ low) (hb : b.toNat < 0x80) :
    continuation n low high (bytes ++ b :: rest) = continuation n low high bytes := by
  induction n generalizing low high bytes with
  | zero => rw [continuation_zero, continuation_zero]
  | succ n ih =>
    cases bytes with
    | nil =>
      rw [List.nil_append, continuation, if_neg (by omega)]
      rfl
    | cons a as =>
      rw [List.cons_append, continuation, continuation, ih (Nat.le_refl _)]

/-! ## What it comes to -/

/-- What the first byte of a character beyond ASCII announces. -/
theorem head?_cases {b : Nat} (hb : 0x80 ≤ b) (h : head? b = some head) :
    0x80 ≤ head.low ∧ head.high ≤ 0xBF ∧
      (head.following = 1 ∧ 2 ≤ head.bits ∧ head.bits < 32 ∨
      head.following = 2 ∧ head.bits < 16 ∧ (head.bits = 0 → 0xA0 ≤ head.low) ∧
        (head.bits = 0xD → head.high ≤ 0x9F) ∨
      head.following = 3 ∧ head.bits < 5 ∧ (head.bits = 0 → 0x90 ≤ head.low) ∧
        (head.bits = 4 → head.high ≤ 0x8F)) := by
  unfold head? at h
  rw [if_neg (by omega)] at h
  repeat' split at h
  all_goals cases h
  all_goals dsimp only; omega

/-- A first byte that is not ASCII with all the bytes that it announces makes a code point beyond
ASCII, and one that a character has. -/
theorem bounds_codePoint {b : Nat} (hb : 0x80 ≤ b) (hh : head? b = some head)
    (hc : continuation head.following head.low head.high bytes = following)
    (hl : following.length = head.following) :
    0x80 ≤ codePoint head.bits following ∧ (codePoint head.bits following).isValidChar := by
  obtain ⟨hlow, hhigh, hcases⟩ := head?_cases hb hh
  cases following with
  | nil =>
    rw [List.length_nil] at hl
    omega
  | cons x xs =>
    obtain ⟨hx, hxs⟩ := bounds_of_continuation_eq hc
    simp only [codePoint, List.foldl, Nat.isValidChar]
    -- There are one, two or three bytes, as the first one announces.
    rcases xs with _ | ⟨y, _ | ⟨z, _ | ⟨w, ws⟩⟩⟩
    · simp only [List.length_cons, List.length_nil, List.foldl] at hl ⊢
      omega
    · have hy := hxs y (by simp)
      simp only [List.length_cons, List.length_nil, List.foldl] at hl ⊢
      omega
    · have hy := hxs y (by simp)
      have hz := hxs z (by simp)
      simp only [List.length_cons, List.length_nil, List.foldl] at hl ⊢
      omega
    · simp only [List.length_cons] at hl
      omega

theorem toNat_ofNat (hn : n.isValidChar) : (Char.ofNat n).toNat = n := by
  rw [Char.ofNat, dif_pos hn]
  rfl

theorem isAsciiChar_ofNat (hn : n.isValidChar) :
    isAsciiChar (Char.ofNat n) = decide (n < 0x80) := by
  rw [isAsciiChar, toNat_ofNat hn]

/-! ## Reading -/

theorem decode_nil : decode [] = [] := by
  rw [decode]

theorem decode_cons_of_head?_eq_none (hh : head? b.toNat = none) (rest : Bytes) :
    decode (b :: rest) = replacement :: decode rest := by
  rw [decode, hh]

/-- A first byte becomes one character with what it takes with it. -/
theorem decode_cons_of_head? (hh : head? b.toNat = some head)
    (hf : continuation head.following head.low head.high rest = following) :
    decode (b :: rest) =
      (if following.length = head.following then Char.ofNat (codePoint head.bits following)
        else replacement) :: decode (rest.drop following.length) := by
  rw [decode, hh]
  simp only [hf]

theorem decode_cons_ascii (hb : b.toNat < 0x80) (rest : Bytes) :
    decode (b :: rest) = Char.ofNat b.toNat :: decode rest := by
  have hd := decode_one rest hb
  rwa [UInt8.ofNat_toNat] at hd

/-- A byte beyond ASCII becomes one character beyond ASCII, together with the bytes it takes with it. They
depend on what comes behind only as far as the next ASCII byte. -/
theorem exists_decode_cons (hb : 0x80 ≤ b.toNat) (bytes : Bytes) :
    ∃ c following after, bytes = following ++ after ∧ isAsciiChar c = false ∧
      (∀ x ∈ following, isAsciiByte x = false) ∧ decode (b :: bytes) = c :: decode after ∧
      ∀ (x : UInt8) rest, x.toNat < 0x80 →
        decode (b :: bytes ++ x :: rest) = c :: decode (after ++ x :: rest) := by
  cases hh : head? b.toNat with
  | none =>
    refine ⟨replacement, [], bytes, rfl, rfl, by simp, ?_, fun x rest _ => ?_⟩
    · exact decode_cons_of_head?_eq_none hh bytes
    · exact decode_cons_of_head?_eq_none hh (bytes ++ x :: rest)
  | some head =>
    obtain ⟨hlow, -⟩ := head?_cases hb hh
    obtain ⟨after, ha⟩ := continuation_isPrefix head.following head.low head.high bytes
    generalize hf : continuation head.following head.low head.high bytes = following at ha
    refine ⟨if following.length = head.following then Char.ofNat (codePoint head.bits following)
      else replacement, following, after, ha.symm, ?_, ?_, ?_, fun x rest hx => ?_⟩
    · split
      · next hl =>
        obtain ⟨hc, hv⟩ := bounds_codePoint hb hh hf hl
        rw [isAsciiChar_ofNat hv]
        simpa using hc
      · rfl
    · intro x hx
      cases following with
      | nil => cases hx
      | cons y ys =>
        obtain ⟨hy, hys⟩ := bounds_of_continuation_eq hf
        have hx' : 0x80 ≤ x.toNat := by
          rcases List.mem_cons.1 hx with rfl | hx
          · omega
          · exact (hys x hx).1
        simpa [isAsciiByte] using hx'
    · rw [decode_cons_of_head? hh hf, ← ha, List.drop_left]
    · have hf' : continuation head.following head.low head.high (bytes ++ x :: rest) = following := by
        rw [continuation_append_ascii hlow hx, hf]
      rw [List.cons_append, decode_cons_of_head? hh hf', ← ha, List.append_assoc, List.drop_left]

/-- What reading keeps of ASCII: each such byte is its character, in the order of the bytes, and reading
starts afresh behind an ASCII byte that comes next. -/
structure KeepsAscii (bytes : Bytes) : Prop where
  filter_decode : (decode bytes).filter isAsciiChar =
    (bytes.filter isAsciiByte).map fun b => Char.ofNat b.toNat
  decode_append : ∀ (x : UInt8) rest, x.toNat < 0x80 →
    decode (bytes ++ x :: rest) = decode bytes ++ Char.ofNat x.toNat :: decode rest

theorem keepsAscii (bytes : Bytes) : KeepsAscii bytes := by
  -- By induction on the length: a byte beyond ASCII takes others with it.
  induction hn : bytes.length using Nat.strong_induction_on generalizing bytes with
  | _ n ih =>
    cases bytes with
    | nil =>
      refine ⟨by simp [decode_nil], fun x rest hx => ?_⟩
      rw [List.nil_append, decode_cons_ascii hx, decode_nil, List.nil_append]
    | cons b bytes =>
      by_cases hb : b.toNat < 0x80
      · obtain ⟨hf, ha⟩ := ih bytes.length (by rw [← hn]; simp) bytes rfl
        have hc : isAsciiChar (Char.ofNat b.toNat) = true := by
          rw [isAsciiChar_ofNat (.inl (by omega))]
          simpa using hb
        refine ⟨?_, fun x rest hx => ?_⟩
        · rw [decode_cons_ascii hb, List.filter_cons_of_pos hc,
            List.filter_cons_of_pos (by simpa [isAsciiByte] using hb), hf, List.map_cons]
        · rw [List.cons_append, decode_cons_ascii hb, decode_cons_ascii hb, ha x rest hx,
            List.cons_append]
      · obtain ⟨c, following, after, rfl, hc, hfollow, hd, happ⟩ :=
          exists_decode_cons (Nat.le_of_not_lt hb) bytes
        have hl : after.length < n := by
          rw [← hn, List.length_cons, List.length_append]
          omega
        obtain ⟨hf, ha⟩ := ih after.length hl after rfl
        refine ⟨?_, fun x rest hx => ?_⟩
        · have hnone : following.filter isAsciiByte = [] :=
            List.filter_eq_nil_iff.2 fun x hx => by simp [hfollow x hx]
          rw [hd, List.filter_cons_of_neg (by simp [hc]), hf,
            List.filter_cons_of_neg (by simpa [isAsciiByte] using hb), List.filter_append, hnone,
            List.nil_append]
        · rw [happ x rest hx, hd, ha x rest hx, List.cons_append]

/-- Bytes have as many line feeds as the text that they are read as. -/
theorem lineFeeds_decode (bytes : Bytes) :
    Text.lineFeeds (decode bytes) = bytes.count 0x0A := by
  have hc : (decode bytes).count '\n' = ((decode bytes).filter isAsciiChar).count '\n' :=
    (List.count_filter rfl).symm
  have hb : (bytes.filter isAsciiByte).count 0x0A = bytes.count 0x0A := List.count_filter rfl
  have hi : Function.Injective fun b : UInt8 => Char.ofNat b.toNat := by
    intro a b h
    have ht := congrArg Char.toNat h
    have hv : ∀ b : UInt8, b.toNat.isValidChar := fun b => .inl (by have := b.toNat_lt; omega)
    rw [toNat_ofNat (hv a), toNat_ofNat (hv b)] at ht
    exact UInt8.toNat_inj.1 ht
  rw [Text.lineFeeds, hc, (keepsAscii bytes).filter_decode, ← hb]
  exact List.count_map_of_injective _ _ hi 0x0A

end Utf8

variable {files : FileSystem} {path : Text} {choice : EncodingChoice} {codecs : Codecs}
  {bytes : Bytes}

/-- A readable file of any bytes is scanned in UTF-8, and the token that ends it is on the line that the
line feeds among its bytes give. Malformed sequences leave ASCII alone: the ASCII characters of the
text are the ASCII bytes of the file, in their order, and each of these divides the text into what
the bytes before it and the bytes behind it are read as by themselves. -/
theorem malformed_files_keep_their_lines (hf : IsReadable files path bytes)
    (hc : choice.IsUtf8 codecs) :
    (∃ tokens errors, scanFile files path choice codecs =
      .ok ⟨tokens ++ [Token.endOfText (1 + bytes.count 0x0A : Nat)], errors⟩) ∧
    scanFile files path choice codecs = .ok (scan (Utf8.decode bytes)) ∧
    (Utf8.decode bytes).filter Utf8.isAsciiChar =
      (bytes.filter Utf8.isAsciiByte).map (fun b => Char.ofNat b.toNat) ∧
    ∀ before (b : UInt8) after, bytes = before ++ b :: after → b.toNat < 0x80 →
      Utf8.decode bytes = Utf8.decode before ++ Char.ofNat b.toNat :: Utf8.decode after := by
  have hs : scanFile files path choice codecs = .ok (scan (Utf8.decode bytes)) := by
    rw [scanFile, readScript_utf8 hf hc]
    rfl
  refine ⟨⟨readTokens [] (cut (Utf8.decode bytes)), (scan (Utf8.decode bytes)).errors, ?_⟩, hs,
    (Utf8.keepsAscii bytes).filter_decode, ?_⟩
  · rw [hs, ← Utf8.lineFeeds_decode, ← tokens_scan (isCut_cut _)]
  · rintro before b after rfl hb
    exact (Utf8.keepsAscii before).decode_append b after hb

/-- Line feeds behind a sequence that breaks off, an overlong form, half a surrogate and a byte that can
start nothing, with a string open from the first byte on: the file ends on line 5. -/
theorem malformed_string_keeps_its_lines :
    let bytes := [0x22, 0xE2, 0x82, 0x0A, 0xC0, 0x80, 0x0A, 0xED, 0xA0, 0x0A, 0xFF, 0x0A, 0xF0, 0x9F]
    let files := (FileTree.ofEntries [(['a'], .file bytes)]).toFileSystem
    IsReadable files ['a'] bytes ∧ ∃ tokens errors, scanFile files ['a'] .platform =
      .ok ⟨tokens ++ [Token.endOfText 5], errors⟩ := by
  intro bytes files
  have hf : IsReadable files ['a'] bytes := by
    unfold IsReadable
    decide +kernel
  exact ⟨hf, (malformed_files_keep_their_lines hf isUtf8_platform).1⟩

end ScriptLexer
