import ScriptLexer.Text.Basic

/-! # Punctuation and operators

The nineteen lexemes that are not made of letters, digits or quotes. Ten characters are always a
symbol of their own; four more form a symbol alone or together with an equals sign after them; the
slash is left, which may also open a comment. -/

namespace ScriptLexer

/-- A punctuation mark or an operator. -/
inductive Symbol where
  | leftParen
  | rightParen
  | leftBrace
  | rightBrace
  | comma
  | dot
  | minus
  | plus
  | semicolon
  | slash
  | star
  | bang
  | bangEqual
  | equal
  | equalEqual
  | greater
  | greaterEqual
  | less
  | lessEqual
deriving DecidableEq, Repr

namespace Symbol

/-- All symbols, in the order in which token kinds are numbered. -/
def all : List Symbol :=
  [leftParen, rightParen, leftBrace, rightBrace, comma, dot, minus, plus, semicolon, slash, star,
   bang, bangEqual, equal, equalEqual, greater, greaterEqual, less, lessEqual]

/-- The characters of a symbol. -/
def spelling : Symbol → Text
  | leftParen => ['(']
  | rightParen => [')']
  | leftBrace => ['\x7b']
  | rightBrace => ['\x7d']
  | comma => [',']
  | dot => ['.']
  | minus => ['-']
  | plus => ['+']
  | semicolon => [';']
  | slash => ['/']
  | star => ['*']
  | bang => ['!']
  | bangEqual => ['!', '=']
  | equal => ['=']
  | equalEqual => ['=', '=']
  | greater => ['>']
  | greaterEqual => ['>', '=']
  | less => ['<']
  | lessEqual => ['<', '=']

/-- The name of a symbol in printed tokens. -/
def name : Symbol → Text
  | leftParen => "LEFT_PAREN".toList
  | rightParen => "RIGHT_PAREN".toList
  | leftBrace => "LEFT_BRACE".toList
  | rightBrace => "RIGHT_BRACE".toList
  | comma => "COMMA".toList
  | dot => "DOT".toList
  | minus => "MINUS".toList
  | plus => "PLUS".toList
  | semicolon => "SEMICOLON".toList
  | slash => "SLASH".toList
  | star => "STAR".toList
  | bang => "BANG".toList
  | bangEqual => "BANG_EQUAL".toList
  | equal => "EQUAL".toList
  | equalEqual => "EQUAL_EQUAL".toList
  | greater => "GREATER".toList
  | greaterEqual => "GREATER_EQUAL".toList
  | less => "LESS".toList
  | lessEqual => "LESS_EQUAL".toList

/-- Operators compute or compare; the other symbols only separate. -/
def isOperator : Symbol → Bool
  | leftParen | rightParen | leftBrace | rightBrace | comma | dot | semicolon => false
  | _ => true

/-- The symbol of a character that is always a symbol of its own. -/
def ofPunctuation? : Char → Option Symbol
  | '(' => some leftParen
  | ')' => some rightParen
  | '\x7b' => some leftBrace
  | '\x7d' => some rightBrace
  | ',' => some comma
  | '.' => some dot
  | '-' => some minus
  | '+' => some plus
  | ';' => some semicolon
  | '*' => some star
  | _ => none

/-- The two symbols of a character that an equals sign may follow: alone, and with it. -/
def ofEqualSuffixed? : Char → Option (Symbol × Symbol)
  | '!' => some (bang, bangEqual)
  | '=' => some (equal, equalEqual)
  | '<' => some (less, lessEqual)
  | '>' => some (greater, greaterEqual)
  | _ => none

theorem spelling_of_ofPunctuation? {c : Char} {s : Symbol} (h : ofPunctuation? c = some s) :
    s.spelling = [c] := by
  unfold ofPunctuation? at h
  split at h <;> cases h <;> rfl

theorem spelling_of_ofEqualSuffixed? {c : Char} {single double : Symbol}
    (h : ofEqualSuffixed? c = some (single, double)) :
    single.spelling = [c] ∧ double.spelling = [c, '='] := by
  unfold ofEqualSuffixed? at h
  split at h <;> cases h <;> exact ⟨rfl, rfl⟩

theorem spelling_ne_nil (s : Symbol) : s.spelling ≠ [] := by
  cases s <;> exact List.cons_ne_nil _ _

end Symbol

end ScriptLexer
