import ScriptLexer.Encoding.Utf8

/-! # Encodings of one byte per character -/

namespace ScriptLexer.SingleByte

/-- ASCII has the lower half of the bytes only. -/
def ascii (b : UInt8) : Char :=
  if b.toNat < 0x80 then Char.ofNat b.toNat else replacement

/-- Latin-1 has the first 256 code points. -/
def latin1 (b : UInt8) : Char :=
  Char.ofNat b.toNat

/-- The characters of Windows-1252 from 0x80 to 0x9F. Five bytes have none. -/
def windows1252Extras : List Char :=
  ['\u20AC', '\uFFFD', '\u201A', '\u0192', '\u201E', '\u2026', '\u2020', '\u2021',
   '\u02C6', '\u2030', '\u0160', '\u2039', '\u0152', '\uFFFD', '\u017D', '\uFFFD',
   '\uFFFD', '\u2018', '\u2019', '\u201C', '\u201D', '\u2022', '\u2013', '\u2014',
   '\u02DC', '\u2122', '\u0161', '\u203A', '\u0153', '\uFFFD', '\u017E', '\u0178']

/-- Windows-1252 differs from Latin-1 between 0x80 and 0x9F. -/
def windows1252 (b : UInt8) : Char :=
  if 0x80 ≤ b.toNat ∧ b.toNat < 0xA0 then windows1252Extras.getD (b.toNat - 0x80) replacement
  else latin1 b

end ScriptLexer.SingleByte
