import ScriptLexer.Lexer.Tokenize

/-! # The lexer under watch

The readers of a lexer take whole texts off what is unread. Here they are spelled out as they work on
indices: one character at a time, every test made anew before each pass of a loop, errors raised where
they are found and caught in the loop over the pieces. What is done on the way is noted.

Nothing in this form keeps the readers from going wrong. There is no character beyond the end of the
source, a text that is not a number has no value, a text that is not one character has no code point,
and a loop is given up when it makes more passes than there are characters left, and one more to find
the end. -/

namespace ScriptLexer

/-- What is done on the way that could go wrong, or is told apart later. -/
inductive Act where
  | read (position : Nat)
  | move (position : Nat)
  | convert (lexeme : Text)
  | unexpected (found : Text)
  | raise (e : LexError)
  | pass (position : Nat)
deriving DecidableEq, Repr

/-- Why work stops. -/
inductive Trouble where
  | failure (f : Lexer.Failure)
  | noSingleCodePoint (e : NoSingleCodePoint)
  | endless
deriving DecidableEq, Repr

/-- A lexer with notes of what it has done. -/
structure Watched where
  lexer : Lexer
  acts : List Act := []
deriving DecidableEq, Repr

/-- Work on a watched lexer. Work that stops leaves the lexer as it was at that point. -/
abbrev Work (α : Type) :=
  ExceptT Trouble (StateM Watched) α

namespace Work

/-! ## Single acts -/

def note (a : Act) : Work Unit :=
  modify fun s => { s with acts := s.acts ++ [a] }

def lexer : Work Lexer :=
  return (← get).lexer

def change (f : Lexer → Lexer) : Work Unit :=
  modify fun s => { s with lexer := f s.lexer }

/-- The character at a position of the source, if there is one. -/
def readAt (position : Nat) : Work Char := do
  note (.read position)
  match (← lexer).source[position]? with
  | some c => return c
  | none => throw (.failure .pastEnd)

/-- Moves the cursor on by one. -/
def moveOn : Work Unit := do
  let l ← lexer
  note (.move (l.current + 1))
  change fun l => { l with current := l.current + 1 }

/-- Counts a line if the character is a line feed. -/
def countLine (c : Char) : Work Unit :=
  if c = '\n' then change fun l => { l with line := l.line + 1 } else return ()

def raise {α : Type} (e : LexError) : Work α := do
  note (.raise e)
  throw (.failure (.lexical e))

/-- The value of the lexeme, if it is a number. -/
def convert (lexeme : Text) : Work Binary64 := do
  note (.convert lexeme)
  match Binary64.ofText? lexeme with
  | some v => return v
  | none => throw (.failure (.notANumber lexeme))

/-- Raises the error for a text that starts no lexeme. -/
def unexpected {α : Type} (found : Text) : Work α := do
  note (.unexpected found)
  match LexError.unexpectedText found (← lexer).line with
  | .ok e => raise e
  | .error e => throw (.noSingleCodePoint e)

/-! ## The cursor -/

def atEnd : Work Bool := do
  let l ← lexer
  return l.source.length ≤ l.current

def peek : Work Char := do
  if ← atEnd then
    return '\x00'
  else
    readAt (← lexer).current

def peekNext : Work Char := do
  let l ← lexer
  if l.source.length ≤ l.current + 1 then
    return '\x00'
  else
    readAt (l.current + 1)

def advance : Work Char := do
  let c ← readAt (← lexer).current
  moveOn
  return c

/-- Takes the next character if it is the one expected. -/
def accept (expected : Char) : Work Bool := do
  if ← atEnd then
    return false
  else if (← readAt (← lexer).current) = expected then
    moveOn
    return true
  else
    return false

/-- Whether `c` comes next and a character that passes the test after it. -/
def nextTwo (c : Char) (p : Char → Bool) : Work Bool := do
  if (← peek) = c then
    return p (← peekNext)
  else
    return false

/-! ## Loops -/

/-- Makes passes until one of them has a result, at most `n`. -/
def passes {α : Type} (pass : Work (Option α)) : Nat → Work α
  | 0 => throw .endless
  | n + 1 => do
    match ← pass with
    | some a => return a
    | none => passes pass n

/-- Makes passes until one of them has a result: one for each character left, and one for the end. -/
def loop {α : Type} (pass : Work (Option α)) : Work α := do
  let l ← lexer
  passes pass (l.source.length - l.current + 1)

/-- Takes the next character if it passes the test. -/
def skipPass (p : Char → Bool) : Work (Option Unit) := do
  if p (← peek) then
    let _ ← advance
    return none
  else
    return some ()

def skipWhile (p : Char → Bool) : Work Unit :=
  loop (skipPass p)

/-! ## Readers -/

def linePass : Work (Option Unit) := do
  if (← peek) = '\n' then
    return some ()
  else if ← atEnd then
    return some ()
  else
    let _ ← advance
    return none

def lineComment : Work Unit :=
  loop linePass

/-- The result of a pass over a block comment says whether the comment was closed. -/
def commentPass : Work (Option Bool) := do
  if ← atEnd then
    return some false
  else if ← nextTwo '*' (· = '/') then
    let _ ← advance
    let _ ← advance
    return some true
  else
    countLine (← advance)
    return none

def blockComment : Work Unit := do
  if ← loop commentPass then
    return ()
  else
    raise (LexError.unterminatedComment (← lexer).line)

def slash : Work Unit := do
  if ← accept '/' then
    lineComment
  else if ← accept '*' then
    blockComment
  else
    change (Lexer.push (.symbol .slash) none)

def stringPass : Work (Option Unit) := do
  if ← atEnd then
    return some ()
  else if (← peek) = '\x22' then
    return some ()
  else
    countLine (← peek)
    let _ ← advance
    return none

def string : Work Unit := do
  loop stringPass
  if ← atEnd then
    raise (LexError.unterminatedString (← lexer).line)
  else
    let _ ← advance
    change fun l => l.push .string (some (.text l.innerLexeme))

/-- A point and the digits after it, if that is what comes next. -/
def fraction : Work Unit := do
  if ← nextTwo '.' isDigit then
    let _ ← advance
    skipWhile isDigit
  else
    return ()

def number : Work Unit := do
  skipWhile isDigit
  fraction
  let v ← convert (← lexer).lexeme
  change (Lexer.push .number (some (.number v)))

def identifier : Work Unit := do
  skipWhile isWordCharacter
  change fun l => l.push (.ofWord l.lexeme) none

def equalSuffixed (single double : Symbol) : Work Unit := do
  if ← accept '=' then
    change (Lexer.push (.symbol double) none)
  else
    change (Lexer.push (.symbol single) none)

/-- Reads the rest of the piece that starts with `c`. -/
def readPiece (c : Char) : Work Unit :=
  match Lead.of c with
  | .symbol s => change (Lexer.push (.symbol s) none)
  | .equalSuffixed single double => equalSuffixed single double
  | .slash => slash
  | .blank => countLine c
  | .quote => string
  | .digit => number
  | .letter => identifier
  | .stray => unexpected [c]

def scanToken : Work Unit := do
  readPiece (← advance)

/-! ## The whole source -/

/-- What is done about trouble with a piece: lexical errors are recorded, and the others go on. -/
def recover : Trouble → Work (Option Unit)
  | .failure (.lexical e) => do
    change (Lexer.record e)
    return if e.halts then some () else none
  | t => throw t

def piecePass : Work (Option Unit) := do
  if ← atEnd then
    return some ()
  else
    note (.pass (← lexer).current)
    change Lexer.begin
    tryCatch (do scanToken; return none) recover

def tokenize : Work (List Token) := do
  change Lexer.rewind
  loop piecePass
  change Lexer.close
  return (← lexer).tokens

end Work

end ScriptLexer
