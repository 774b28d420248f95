import ScriptLexer.Text.Basic
import ScriptLexer.Text.Unprintable

/-! # Quoted text

The form in which text is shown inside a printed token or a message: between quotes, on one line.
Apostrophes are the usual quotes; a text that has an apostrophe and no double quote stands between
double quotes, so that nothing in it has to be escaped. -/

namespace ScriptLexer.Text

/-- The quote that a text is shown in. -/
def quoteMark (t : Text) : Char :=
  if '\x27' ∈ t ∧ '\x22' ∉ t then '\x22' else '\x27'

/-- One character of quoted text. The quote in use and the backslash get a backslash, tab, line feed
and carriage return their letters, other unprintable characters the shortest of three hexadecimal
forms, and the rest stand for themselves. -/
def escaped (mark c : Char) : Text :=
  if c = mark ∨ c = '\\' then ['\\', c]
  else if c = '\t' then ['\\', 't']
  else if c = '\n' then ['\\', 'n']
  else if c = '\r' then ['\\', 'r']
  else if isPrintable c then [c]
  else if c.toNat < 0x100 then '\\' :: 'x' :: ofNatHex 2 c.toNat
  else if c.toNat < 0x10000 then '\\' :: 'u' :: ofNatHex 4 c.toNat
  else '\\' :: 'U' :: ofNatHex 8 c.toNat

/-- The text between quotes. -/
def quoted (t : Text) : Text :=
  let mark := quoteMark t
  mark :: t.flatMap (escaped mark) ++ [mark]

end ScriptLexer.Text
