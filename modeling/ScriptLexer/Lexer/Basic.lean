import ScriptLexer.Scan.Basic

/-! # The stepwise lexer

A lexer holds a source text, a cursor in it, and the tokens and errors found so far. Its operations
read from the cursor on, wherever that stands, and move it over what they read. An operation that
fails keeps the moves it made before.

The cursor may stand beyond the end of the source, when the source was replaced by a shorter one;
there is nothing to read there. -/

namespace ScriptLexer

/-- A place in a source. The lexeme being read reaches from `start` to `current`; `line` is the line
of the cursor and `startLine` that of the lexeme. -/
structure Cursor where
  source : Text
  start : Nat := 0
  current : Nat := 0
  line : Nat := 1
  startLine : Nat := 1
deriving DecidableEq, Repr

/-- A lexer at work: where it is, and what it has found so far. -/
structure Lexer extends Cursor where
  tokens : List Token := []
  errors : List LexError := []
deriving DecidableEq, Repr

namespace Lexer

/-- Why an operation of a lexer fails. -/
inductive Failure where
  | lexical (e : LexError)
  | pastEnd
  | notANumber (lexeme : Text)
  | unknownKind (e : UnknownKind)
  | noSuchResult
deriving DecidableEq, Repr

def Failure.message : Failure → Text
  | lexical e => e.written
  | pastEnd => "string index out of range".toList
  | notANumber lexeme => "could not convert string to float: ".toList ++ Text.quoted lexeme
  | unknownKind e => e.message
  | noSuchResult => "list index out of range".toList

/-- What an operation comes to, with the lexer after it. -/
abbrev Outcome (α : Type) :=
  Except Failure α × Lexer

/-! ## Views -/

/-- What is still to be read. -/
def unread (l : Lexer) : Text :=
  l.source.drop l.current

/-- The lexeme read so far, as far as the source has it. -/
def lexeme (l : Lexer) : Text :=
  (l.source.take l.current).drop l.start

/-- The lexeme without its first and its last character. -/
def innerLexeme (l : Lexer) : Text :=
  (l.source.take (l.current - 1)).drop (l.start + 1)

/-! ## Moves -/

/-- A new lexeme starts at the cursor. -/
def begin (l : Lexer) : Lexer :=
  { l with start := l.current, startLine := l.line }

/-- Moves the cursor over `t`, which is what comes next in the source. -/
def consume (t : Text) (l : Lexer) : Lexer :=
  { l with current := l.current + t.length, line := l.line + Text.lineFeeds t }

/-- Adds a token for the lexeme. -/
def push (kind : TokenKind) (literal : Option Literal) (l : Lexer) : Lexer :=
  { l with tokens := l.tokens ++ [⟨kind, l.lexeme, literal, l.startLine⟩] }

/-- Records an error. -/
def record (e : LexError) (l : Lexer) : Lexer :=
  { l with errors := l.errors ++ [e] }

/-- Takes the next character, without counting lines. -/
def advance (l : Lexer) : Outcome Char :=
  match l.unread with
  | [] => (.error .pastEnd, l)
  | c :: _ => (.ok c, { l with current := l.current + 1 })

/-- Takes the next character, without counting lines, if `expected` is that one character. -/
def accept (expected : Text) (l : Lexer) : Bool × Lexer :=
  match l.unread with
  | c :: _ => if expected = [c] then (true, { l with current := l.current + 1 }) else (false, l)
  | [] => (false, l)

/-- The next character, or NUL where there is none. -/
def peek (l : Lexer) : Char :=
  l.unread.headD '\x00'

/-- The character after the next, or NUL where there is none. -/
def peekNext (l : Lexer) : Char :=
  (l.unread.drop 1).headD '\x00'

/-! ## Readers

Each reads the rest of a lexeme, after the characters that told what it is. -/

def blockComment (l : Lexer) : Outcome Unit :=
  match splitComment l.unread with
  | some (body, _) => (.ok (), l.consume (body ++ ['*', '/']))
  | none =>
    let ended := l.consume l.unread
    (.error (.lexical (LexError.unterminatedComment ended.line)), ended)

/-- After a slash: a line comment up to its line feed, a block comment, or division. -/
def slash (l : Lexer) : Outcome Unit :=
  match l.unread with
  | '/' :: rest => (.ok (), l.consume ('/' :: rest.takeWhile (· ≠ '\n')))
  | '*' :: _ => (l.consume ['*']).blockComment
  | _ => (.ok (), l.push (.symbol .slash) none)

/-- After an opening quote: everything up to the closing one. -/
def string (l : Lexer) : Outcome Unit :=
  match splitString l.unread with
  | some (body, _) =>
    let ended := l.consume (body ++ ['\x22'])
    (.ok (), ended.push .string (some (.text ended.innerLexeme)))
  | none =>
    let ended := l.consume l.unread
    (.error (.lexical (LexError.unterminatedString ended.line)), ended)

/-- The longest start of a text that continues a number. -/
def numberTail (t : Text) : Text :=
  t.takeWhile isDigit ++
    match splitFraction (t.dropWhile isDigit) with
    | some (fraction, _) => '.' :: fraction
    | none => []

/-- After a digit: more digits and a fraction. The value is that of the whole lexeme, which need not
be a number if it was begun elsewhere. -/
def number (l : Lexer) : Outcome Unit :=
  let ended := l.consume (numberTail l.unread)
  match Binary64.ofText? ended.lexeme with
  | some v => (.ok (), ended.push .number (some (.number v)))
  | none => (.error (.notANumber ended.lexeme), ended)

/-- After a letter: the rest of the word. -/
def identifier (l : Lexer) : Outcome Unit :=
  let ended := l.consume (l.unread.takeWhile isWordCharacter)
  (.ok (), ended.push (.ofWord ended.lexeme) none)

/-- After a character that an equals sign may follow. -/
def equalSuffixed (single double : Symbol) (l : Lexer) : Lexer :=
  match l.unread with
  | '=' :: _ => (l.consume ['=']).push (.symbol double) none
  | _ => l.push (.symbol single) none

/-- Reads the rest of the piece that starts with `c`, which the cursor has just passed. -/
def readPiece (c : Char) (l : Lexer) : Outcome Unit :=
  match Lead.of c with
  | .symbol s => (.ok (), l.push (.symbol s) none)
  | .equalSuffixed single double => (.ok (), l.equalSuffixed single double)
  | .slash => l.slash
  | .blank => (.ok (), l)
  | .quote => l.string
  | .digit => l.number
  | .letter => l.identifier
  | .stray => (.error (.lexical (LexError.unexpectedCharacter c l.line)), l)

/-- Reads one piece. -/
def scanToken (l : Lexer) : Outcome Unit :=
  match l.unread with
  | [] => (.error .pastEnd, l)
  | c :: _ => (l.consume [c]).readPiece c

end Lexer

end ScriptLexer
