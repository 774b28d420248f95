import ScriptLexer.Token.Kind
import ScriptLexer.Numeric.Written
import ScriptLexer.Text.Quoted

/-! # Tokens

A token is a kind, the lexeme it was read from, the value of a literal, and the line on which the
lexeme starts. Two printed forms: `written` for the listing of a script, and `writtenInFull` with
every field. -/

namespace ScriptLexer

/-- The value that a string or number lexeme denotes. -/
inductive Literal where
  | number (value : Binary64)
  | text (value : Text)
deriving DecidableEq, Repr

/-- A token. The fields are independent of each other here; the scanner is what makes them fit. -/
structure Token where
  kind : TokenKind
  lexeme : Text
  literal : Option Literal
  line : Int
deriving DecidableEq, Repr

namespace Literal

/-- The text of a literal: numbers in their shortest form, texts quoted. -/
def written : Literal → Text
  | number v => v.written
  | text t => Text.quoted t

/-- The text in the place of a literal, which says so if there is none. -/
def writtenOption : Option Literal → Text
  | some l => l.written
  | none => "None".toList

/-- Whether two literals denote the same value. Numbers compare as numbers. -/
def same : Literal → Literal → Bool
  | number a, number b => a.sameNumber b
  | text s, text t => s == t
  | _, _ => false

end Literal

namespace Token

/-- The token that ends every token list. -/
def endOfText (line : Int) : Token :=
  ⟨.endOfText, [], none, line⟩

/-- The listing form: kind, lexeme, and the value if there is one. -/
def written (t : Token) : Text :=
  let value :=
    match t.literal with
    | some l => " -> ".toList ++ l.written
    | none => []
  t.kind.name ++ '(' :: Text.quoted t.lexeme ++ value ++ [')']

/-- All fields of a token. -/
def writtenInFull (t : Token) : Text :=
  "Token(".toList ++ t.kind.name ++ ", ".toList ++ Text.quoted t.lexeme ++ ", ".toList ++
    Literal.writtenOption t.literal ++ ", ".toList ++ Text.ofInt t.line ++ [')']

/-- Whether two tokens agree in every field, number literals compared as numbers. -/
def same (a b : Token) : Bool :=
  a.kind = b.kind && a.lexeme = b.lexeme && a.line = b.line &&
    match a.literal, b.literal with
    | none, none => true
    | some x, some y => x.same y
    | _, _ => false

end Token

end ScriptLexer
