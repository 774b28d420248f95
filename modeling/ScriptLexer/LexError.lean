import ScriptLexer.Diagnostic
import ScriptLexer.Text.Quoted

/-! # Lexical errors

What can be wrong with a text on the level of its lexemes. An error is its cause and the line it is
reported on; its message, code and help follow from the cause. -/

namespace ScriptLexer

/-- The faults that the scanner finds. -/
inductive Fault where
  | unexpectedCharacter
  | unterminatedString
  | unterminatedComment
deriving DecidableEq, Repr

namespace Fault

def all : List Fault :=
  [unexpectedCharacter, unterminatedString, unterminatedComment]

def code : Fault → Text
  | unexpectedCharacter => "L001".toList
  | unterminatedString => "L002".toList
  | unterminatedComment => "L003".toList

def message : Fault → Text
  | unexpectedCharacter => "Unexpected character.".toList
  | unterminatedString => "Unterminated string.".toList
  | unterminatedComment => "Unterminated block comment.".toList

/-- The name of a fault in the full form of an error. -/
def name : Fault → Text
  | unexpectedCharacter => "UnexpectedCharacterError".toList
  | unterminatedString => "UnterminatedStringError".toList
  | unterminatedComment => "UnterminatedBlockCommentError".toList

/-- The fault with a given code. -/
def ofCode? (t : Text) : Option Fault :=
  all.find? fun f => f.code = t

end Fault

/-- Why a text is rejected. Besides the scanner's faults there are errors with a message of their
own, for readers that work on tokens. -/
inductive LexError.Cause where
  | unexpectedCharacter (found : Text) (help : Option Text)
  | unterminatedString
  | unterminatedComment
  | other (message : Text) (code help : Option Text)
deriving DecidableEq, Repr

/-- A lexical error. -/
structure LexError where
  cause : LexError.Cause
  line : Int
deriving DecidableEq, Repr

/-- An unprintable text that is not a single character has no code point to report. -/
structure NoSingleCodePoint where
  length : Nat
deriving DecidableEq, Repr

def NoSingleCodePoint.message (e : NoSingleCodePoint) : Text :=
  "ord() expected a character, but string of length ".toList ++ Text.ofNat e.length ++
    " found".toList

namespace LexError

/-! ## The parts of an error -/

def fault? (e : LexError) : Option Fault :=
  match e.cause with
  | .unexpectedCharacter _ _ => some .unexpectedCharacter
  | .unterminatedString => some .unterminatedString
  | .unterminatedComment => some .unterminatedComment
  | .other _ _ _ => none

def message (e : LexError) : Text :=
  match e.cause with
  | .unexpectedCharacter _ _ => Fault.message .unexpectedCharacter
  | .unterminatedString => Fault.message .unterminatedString
  | .unterminatedComment => Fault.message .unterminatedComment
  | .other message _ _ => message

def code? (e : LexError) : Option Text :=
  match e.cause with
  | .other _ code _ => code
  | _ => e.fault?.map Fault.code

def help? (e : LexError) : Option Text :=
  match e.cause with
  | .unexpectedCharacter _ help => help
  | .unterminatedString => some "String literals must be closed with a matching \" quote.".toList
  | .unterminatedComment => some "Block comments must be closed with */.".toList
  | .other _ _ help => help

/-- The text that was found where no lexeme starts. -/
def found? (e : LexError) : Option Text :=
  match e.cause with
  | .unexpectedCharacter found _ => some found
  | _ => none

/-- Nothing can be scanned after a block comment that is not closed. -/
def halts (e : LexError) : Bool :=
  e.cause = .unterminatedComment

def name (e : LexError) : Text :=
  match e.fault? with
  | some f => f.name
  | none => "LexerError".toList

/-! ## Printed forms -/

/-- The error as it is reported to a reader. -/
def diagnostic (e : LexError) : Diagnostic where
  message := e.message
  line := e.line
  code := e.code?
  help := e.help?

def written (e : LexError) : Text :=
  e.diagnostic.written

/-- Name, line and message of an error. -/
def writtenInFull (e : LexError) : Text :=
  e.name ++ "(line=".toList ++ Text.ofInt e.line ++ ", message=".toList ++
    Text.quoted e.message ++ [')']

/-! ## The scanner's errors -/

/-- The help for a text that starts no lexeme: it is shown if it is printable; otherwise it has to be
one character, which is named by its code point. -/
def unexpectedHelp (found : Text) : Except NoSingleCodePoint Text :=
  if found.all Text.isPrintable then
    .ok ("The character '".toList ++ found ++ "' is not valid in Joxy source code.".toList)
  else
    match found with
    | [c] =>
      .ok ("Non-printable character (Unicode: U+".toList ++
        (Text.ofNatHex 4 c.toNat).map Char.toUpper ++ ") is not allowed.".toList)
    | _ => .error ⟨found.length⟩

/-- The error for a text that starts no lexeme. -/
def unexpectedText (found : Text) (line : Int) : Except NoSingleCodePoint LexError :=
  (unexpectedHelp found).map fun help => ⟨.unexpectedCharacter found (some help), line⟩

/-- The error for a character that starts no lexeme. A single character always has a help text. -/
def unexpectedCharacter (c : Char) (line : Int) : LexError :=
  ⟨.unexpectedCharacter [c] (unexpectedHelp [c]).toOption, line⟩

def unterminatedString (line : Int) : LexError :=
  ⟨.unterminatedString, line⟩

def unterminatedComment (line : Int) : LexError :=
  ⟨.unterminatedComment, line⟩

theorem unexpectedText_singleton (c : Char) (line : Int) :
    unexpectedText [c] line = .ok (unexpectedCharacter c line) := by
  unfold unexpectedText unexpectedCharacter unexpectedHelp
  split <;> rfl

end LexError

end ScriptLexer
