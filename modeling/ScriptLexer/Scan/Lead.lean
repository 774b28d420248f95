import ScriptLexer.Token.Symbol

/-! # Characters of the language

The language is written in ASCII. Its letters, digits and blanks are told apart here, and `Lead.of`
says what kind of lexeme a character can start. -/

namespace ScriptLexer

def isDigit (c : Char) : Bool :=
  '0' ≤ c && c ≤ '9'

/-- The underscore counts as a letter. -/
def isLetter (c : Char) : Bool :=
  ('a' ≤ c && c ≤ 'z') || ('A' ≤ c && c ≤ 'Z') || c = '_'

def isWordCharacter (c : Char) : Bool :=
  isLetter c || isDigit c

def isBlank (c : Char) : Bool :=
  c = ' ' || c = '\t' || c = '\r' || c = '\n'

/-! ## The same tests on texts

On a text of any length the bounds are compared in dictionary order, so that a text of one character
is tested like the character. -/

def isDigitText (t : Text) : Bool :=
  !List.lex t ['0'] && !List.lex ['9'] t

def isLetterText (t : Text) : Bool :=
  (!List.lex t ['a'] && !List.lex ['z'] t) || (!List.lex t ['A'] && !List.lex ['Z'] t) || t = ['_']

def isWordText (t : Text) : Bool :=
  isLetterText t || isDigitText t

/-! ## First characters -/

/-- What a character can start. -/
inductive Lead where
  | symbol (s : Symbol)
  | equalSuffixed (single double : Symbol)
  | slash
  | blank
  | quote
  | digit
  | letter
  | stray
deriving DecidableEq, Repr

def Lead.of (c : Char) : Lead :=
  match Symbol.ofPunctuation? c, Symbol.ofEqualSuffixed? c with
  | some s, _ => symbol s
  | none, some (single, double) => equalSuffixed single double
  | none, none =>
    if c = '/' then slash
    else if isBlank c then blank
    else if c = '\x22' then quote
    else if isDigit c then digit
    else if isLetter c then letter
    else stray

end ScriptLexer
