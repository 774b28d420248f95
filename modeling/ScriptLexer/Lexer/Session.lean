import ScriptLexer.Lexer.Heap
import ScriptLexer.Lexer.Tokenize

/-! # Sessions

A session is a lexer together with the token lists it has handed out. Lists are changed in place: the
lexer keeps one list for its tokens, which is emptied and filled again whenever a source is tokenized,
and what is handed out is a copy of it, in a list of its own. A step is one call on the session and
always has an answer or a failure. -/

namespace ScriptLexer

/-- A lexer whose tokens are in the list at `own`, and the lists it has handed out, oldest first. The
list of errors is only ever read, so it needs no address. -/
structure Session where
  cursor : Cursor
  errors : List LexError := []
  heap : Heap Token
  own : Address
  results : List Address := []

namespace Session

/-- One call on a session. Kinds are given by name, and returned lists by their number. -/
inductive Step where
  | tokenize
  | returned (i : Nat)
  | clearReturned (i : Nat)
  | setSource (source : Text)
  | hasErrors
  | errors
  | begin
  | addToken (kind : Text) (literal : Option Literal)
  | advance
  | peek
  | peekNext
  | accept (expected : Text)
  | isAtEnd
  | scanToken
  | slash
  | blockComment
  | string
  | number
  | identifier
deriving DecidableEq, Repr

/-- What a step that succeeds gives back. -/
inductive Answer where
  | done
  | truth (b : Bool)
  | character (c : Char)
  | tokens (ts : List Token)
  | errors (es : List LexError)
deriving DecidableEq, Repr

/-- A session on a source. -/
def ofSource (source : Text) : Session :=
  let (own, heap) := Heap.allocate {} []
  { cursor := { source }, heap, own }

/-! ## Views -/

/-- The lexer, with the tokens that are in its list now. -/
def lexer (s : Session) : Lexer :=
  { s.cursor with tokens := s.heap.read s.own, errors := s.errors }

/-- The lists that were handed out, as they are now. -/
def returned (s : Session) : List (List Token) :=
  s.results.map s.heap.read

/-! ## Changes -/

/-- The session whose lexer has become `l`. The tokens are still in the same list. -/
def update (s : Session) (l : Lexer) : Session :=
  { s with cursor := l.toCursor, errors := l.errors, heap := s.heap.write s.own l.tokens }

/-- Empties one of the lists. Whoever holds it finds it empty. -/
def clear (s : Session) (a : Address) : Session :=
  { s with heap := s.heap.write a [] }

/-- The session with nothing read. The lexer's list stays the same list and is emptied. -/
def rewind (s : Session) : Session :=
  { s.clear s.own with cursor := { source := s.cursor.source }, errors := [] }

/-- Hands out a copy of the lexer's list. -/
def handOut (s : Session) : Address × Session :=
  let (copy, heap) := s.heap.allocate (s.heap.read s.own)
  (copy, { s with heap, results := s.results ++ [copy] })

/-! ## Steps -/

/-- The session after an operation of its lexer that gives nothing back. -/
def after (s : Session) (o : Lexer.Outcome Unit) : Except Lexer.Failure Answer × Session :=
  (o.1.map fun _ => .done, s.update o.2)

/-- Makes one call. -/
def step (s : Session) : Step → Except Lexer.Failure Answer × Session
  | .tokenize =>
    match s.rewind.lexer.readAll with
    | (.ok (), ended) =>
      let (copy, next) := (s.rewind.update ended.close).handOut
      (.ok (.tokens (next.heap.read copy)), next)
    | (.error f, stopped) => (.error f, s.rewind.update stopped)
  | .returned i =>
    match s.results[i]? with
    | some a => (.ok (.tokens (s.heap.read a)), s)
    | none => (.error .noSuchResult, s)
  | .clearReturned i =>
    match s.results[i]? with
    | some a => (.ok .done, s.clear a)
    | none => (.error .noSuchResult, s)
  | .setSource source => (.ok .done, { s with cursor := { s.cursor with source } })
  | .hasErrors => (.ok (.truth !s.errors.isEmpty), s)
  | .errors => (.ok (.errors s.errors), s)
  | .begin => (.ok .done, s.update s.lexer.begin)
  | .addToken kind literal =>
    match TokenKind.ofName kind with
    | .ok k => (.ok .done, s.update (s.lexer.push k literal))
    | .error e => (.error (.unknownKind e), s)
  | .advance =>
    let (result, lexer) := s.lexer.advance
    (result.map .character, s.update lexer)
  | .peek => (.ok (.character s.lexer.peek), s)
  | .peekNext => (.ok (.character s.lexer.peekNext), s)
  | .accept expected =>
    let (found, lexer) := s.lexer.accept expected
    (.ok (.truth found), s.update lexer)
  | .isAtEnd => (.ok (.truth s.lexer.unread.isEmpty), s)
  | .scanToken => s.after s.lexer.scanToken
  | .slash => s.after s.lexer.slash
  | .blockComment => s.after s.lexer.blockComment
  | .string => s.after s.lexer.string
  | .number => s.after s.lexer.number
  | .identifier => s.after s.lexer.identifier

end Session

end ScriptLexer
