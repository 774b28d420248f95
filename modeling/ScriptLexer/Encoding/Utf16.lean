import ScriptLexer.Encoding.Utf8

/-! # UTF-16

Text in units of two bytes, in either byte order. A surrogate without its partner becomes one
replacement character, and so does whatever is cut off at the end of the bytes. -/

namespace ScriptLexer.Utf16

/-- Which byte of a unit comes first. -/
inductive Order where
  | littleEndian
  | bigEndian
deriving DecidableEq, Repr

/-- The unit of two bytes. -/
def Order.unit (order : Order) (a b : UInt8) : Nat :=
  match order with
  | littleEndian => b.toNat * 256 + a.toNat
  | bigEndian => a.toNat * 256 + b.toNat

def isHighSurrogate (u : Nat) : Bool :=
  0xD800 ≤ u && u < 0xDC00

def isLowSurrogate (u : Nat) : Bool :=
  0xDC00 ≤ u && u < 0xE000

/-- The character of a high and a low surrogate. -/
def pair (high low : Nat) : Char :=
  Char.ofNat (0x10000 + (high - 0xD800) * 1024 + (low - 0xDC00))

/-- The text that bytes encode. A high surrogate that no whole unit follows swallows a stray byte
after it. -/
def decode (order : Order) : Bytes → Text
  | [] => []
  | [_] => [replacement]
  | a :: b :: rest =>
    let u := order.unit a b
    if isHighSurrogate u then
      match rest with
      | c :: d :: after =>
        if isLowSurrogate (order.unit c d) then pair u (order.unit c d) :: decode order after
        else replacement :: decode order (c :: d :: after)
      | _ => [replacement]
    else if isLowSurrogate u then replacement :: decode order rest
    else Char.ofNat u :: decode order rest

/-- The text of bytes that open with a byte order mark. Bytes too few for a mark are read without
one; otherwise its absence is an error. -/
def decodeMarked? : Bytes → Option Text
  | 0xFF :: 0xFE :: rest => some (decode .littleEndian rest)
  | 0xFE :: 0xFF :: rest => some (decode .bigEndian rest)
  | _ :: _ :: _ => none
  | bytes => some (decode .littleEndian bytes)

end ScriptLexer.Utf16
