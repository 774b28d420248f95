import ScriptLexer.Text.Basic

/-! # UTF-8

Text as bytes and back. Reading never fails: the longest start of a sequence that cannot be continued
becomes one replacement character, and reading goes on with the byte that did not fit. So no
malformed sequence takes a byte with it that could start a character. -/

namespace ScriptLexer

/-- The contents of a file. -/
abbrev Bytes := List UInt8

/-- The character that stands for bytes that encode none. -/
def replacement : Char := '\uFFFD'

namespace Utf8

/-- What the first byte of a character announces: how many bytes follow, the range that the first of
them must lie in, and the highest bits of the code point. -/
structure Head where
  following : Nat
  low : Nat
  high : Nat
  bits : Nat
deriving DecidableEq, Repr

/-- What a first byte announces, if it can be one. The narrower ranges keep out code points that have
a shorter form, surrogates, and what lies beyond the last code point. -/
def head? (b : Nat) : Option Head :=
  if b < 0x80 then some ⟨0, 0x80, 0xBF, b⟩
  else if b < 0xC2 then none
  else if b < 0xE0 then some ⟨1, 0x80, 0xBF, b - 0xC0⟩
  else if b = 0xE0 then some ⟨2, 0xA0, 0xBF, 0⟩
  else if b = 0xED then some ⟨2, 0x80, 0x9F, 0xD⟩
  else if b < 0xF0 then some ⟨2, 0x80, 0xBF, b - 0xE0⟩
  else if b = 0xF0 then some ⟨3, 0x90, 0xBF, 0⟩
  else if b < 0xF4 then some ⟨3, 0x80, 0xBF, b - 0xF0⟩
  else if b = 0xF4 then some ⟨3, 0x80, 0x8F, 4⟩
  else none

/-- The bytes that continue a character: at most `n`, the first between `low` and `high`. -/
def continuation (n low high : Nat) (bytes : Bytes) : Bytes :=
  match n, bytes with
  | n + 1, b :: rest =>
    if low ≤ b.toNat ∧ b.toNat ≤ high then b :: continuation n 0x80 0xBF rest else []
  | _, _ => []

/-- The code point of a head and all its following bytes, six bits from each. -/
def codePoint (bits : Nat) (following : Bytes) : Nat :=
  following.foldl (fun n b => n * 64 + (b.toNat - 0x80)) bits

/-- The text that bytes encode. -/
def decode : Bytes → Text
  | [] => []
  | b :: rest =>
    match head? b.toNat with
    | none => replacement :: decode rest
    | some head =>
      let following := continuation head.following head.low head.high rest
      let c :=
        if following.length = head.following then Char.ofNat (codePoint head.bits following)
        else replacement
      c :: decode (rest.drop following.length)
termination_by bytes => bytes.length
decreasing_by all_goals simp only [List.length_cons, List.length_drop]; omega

/-- The bytes of one character. -/
def encodeChar (c : Char) : Bytes :=
  let n := c.toNat
  if n < 0x80 then [UInt8.ofNat n]
  else if n < 0x800 then [UInt8.ofNat (0xC0 + n / 64), UInt8.ofNat (0x80 + n % 64)]
  else if n < 0x10000 then
    [UInt8.ofNat (0xE0 + n / 4096), UInt8.ofNat (0x80 + n / 64 % 64), UInt8.ofNat (0x80 + n % 64)]
  else
    [UInt8.ofNat (0xF0 + n / 262144), UInt8.ofNat (0x80 + n / 4096 % 64),
      UInt8.ofNat (0x80 + n / 64 % 64), UInt8.ofNat (0x80 + n % 64)]

/-- The bytes that encode a text. -/
def encode (t : Text) : Bytes :=
  t.flatMap encodeChar

/-- The mark that may open a file to say that it is UTF-8. -/
def mark : Bytes := [0xEF, 0xBB, 0xBF]

/-- The text of bytes that may open with a mark, which is no part of the text. A file that ends inside
the mark holds nothing. -/
def decodeMarked (bytes : Bytes) : Text :=
  if mark.isPrefixOf bytes then decode (bytes.drop mark.length)
  else if bytes.isPrefixOf mark then []
  else decode bytes

end Utf8

end ScriptLexer
