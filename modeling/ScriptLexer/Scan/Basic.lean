import ScriptLexer.Scan.Cut
import ScriptLexer.Token.Basic
import ScriptLexer.LexError
import ScriptLexer.Numeric.Numeral

/-! # Scanning

The tokens and the errors of a text are read off its cut. A token is on the line where its lexeme
starts, an error on the line where its piece ends; lines are counted from one by the line feeds
before. Whatever the text holds, the tokens end with one for the end of the text. -/

namespace ScriptLexer

/-- What scanning a text gives: its tokens and its errors, each in the order of the text. -/
structure Scan where
  tokens : List Token
  errors : List LexError
deriving DecidableEq, Repr

namespace Piece

/-- The value of a number lexeme. -/
def numberValue (whole : Text) (fraction : Option Text) : Binary64 :=
  Binary64.ofDigits false whole (fraction.getD [])

/-- The token of a piece that starts on `line`. Blanks, comments and faulty pieces have none. -/
def token? (line : Nat) (p : Piece) : Option Token :=
  match p with
  | symbol s => some ⟨.symbol s, p.text, none, line⟩
  | string body => some ⟨.string, p.text, some (.text body), line⟩
  | number whole fraction => some ⟨.number, p.text, some (.number (numberValue whole fraction)), line⟩
  | word w => some ⟨.ofWord w, p.text, none, line⟩
  | _ => none

/-- The error of a faulty piece that ends on `line`. -/
def error? (line : Nat) : Piece → Option LexError
  | stray c => some (LexError.unexpectedCharacter c line)
  | openString _ => some (LexError.unterminatedString line)
  | openComment _ => some (LexError.unterminatedComment line)
  | _ => none

end Piece

namespace Scan

/-- Tokens and errors of consecutive pieces, of which the first starts on `line`. -/
def ofPieces (line : Nat) : List Piece → Scan
  | [] => ⟨[Token.endOfText line], []⟩
  | p :: rest =>
    let after := line + Text.lineFeeds p.text
    let later := ofPieces after rest
    ⟨(p.token? line).toList ++ later.tokens, (p.error? after).toList ++ later.errors⟩

def hasErrors (s : Scan) : Bool :=
  !s.errors.isEmpty

end Scan

/-- Tokens and errors of a text. -/
def scan (source : Text) : Scan :=
  Scan.ofPieces 1 (cut source)

end ScriptLexer
