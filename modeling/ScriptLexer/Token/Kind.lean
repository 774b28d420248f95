import ScriptLexer.Token.Symbol
import ScriptLexer.Token.Keyword
import ScriptLexer.Text.Quoted

/-! # Token kinds

A token is a symbol, one of the three kinds with a variable lexeme, a keyword, or the end of the
text. Kinds are numbered from one in this order. -/

namespace ScriptLexer

/-- The kind of a token. -/
inductive TokenKind where
  | symbol (s : Symbol)
  | identifier
  | string
  | number
  | keyword (k : Keyword)
  | endOfText
deriving DecidableEq, Repr

/-- A name or a number that no kind has. -/
inductive UnknownKind where
  | name (given : Text)
  | ordinal (given : Int)
deriving DecidableEq, Repr

/-- What is said about a name or a number that no kind has. -/
def UnknownKind.message : UnknownKind → Text
  | name given => Text.quoted given
  | ordinal given => Text.ofInt given ++ " is not a valid TokenType".toList

namespace TokenKind

/-- All kinds in their order. -/
def all : List TokenKind :=
  Symbol.all.map symbol ++ [identifier, string, number] ++ Keyword.all.map keyword ++ [endOfText]

/-- The name of a kind in printed tokens. -/
def name : TokenKind → Text
  | symbol s => s.name
  | identifier => "IDENTIFIER".toList
  | string => "STRING".toList
  | number => "NUMBER".toList
  | keyword k => k.name
  | endOfText => "EOF".toList

/-- The number of a kind, its place in the order counted from one. -/
def ordinal (k : TokenKind) : Nat :=
  all.idxOf k + 1

/-- The kind with a given name. -/
def ofName (t : Text) : Except UnknownKind TokenKind :=
  match all.find? fun k => k.name = t with
  | some k => .ok k
  | none => .error (.name t)

/-- The kind with a given number. -/
def ofOrdinal (n : Int) : Except UnknownKind TokenKind :=
  match all.find? fun k => (k.ordinal : Int) = n with
  | some k => .ok k
  | none => .error (.ordinal n)

/-- The kind as a member of the enumeration of all kinds. -/
def writtenInFull (k : TokenKind) : Text :=
  "TokenType.".toList ++ k.name

/-- The kind of a word: a keyword if it is reserved, an identifier otherwise. -/
def ofWord (t : Text) : TokenKind :=
  match Keyword.ofSpelling? t with
  | some k => keyword k
  | none => identifier

/-- Whether tokens of this kind carry a value that the lexeme denotes. -/
def isLiteral : TokenKind → Bool
  | string | number => true
  | _ => false

/-- Whether the kind is a keyword. -/
def isKeyword : TokenKind → Bool
  | keyword _ => true
  | _ => false

/-- Whether the kind is an operator. -/
def isOperator : TokenKind → Bool
  | symbol s => s.isOperator
  | _ => false

theorem mem_all (k : TokenKind) : k ∈ all := by
  cases k with
  | symbol s => cases s <;> decide
  | keyword k => cases k <;> decide
  | identifier | string | number | endOfText => decide

/-- The words of a keyword's kind are the one that spells it. -/
theorem ofWord_eq_keyword_iff {t : Text} {k : Keyword} : ofWord t = keyword k ↔ t = k.spelling := by
  constructor
  · intro h
    unfold ofWord at h
    split at h
    · next k' hk =>
      obtain rfl : k' = k := keyword.inj h
      exact (Keyword.spelling_of_ofSpelling? hk).symm
    · cases h
  · rintro rfl
    rw [ofWord, Keyword.ofSpelling?_spelling]

/-- The words that spell no keyword are the identifiers. -/
theorem ofWord_eq_identifier_iff {t : Text} :
    ofWord t = identifier ↔ ∀ k : Keyword, t ≠ k.spelling := by
  constructor
  · rintro h k rfl
    rw [ofWord_eq_keyword_iff.2 rfl] at h
    cases h
  · intro h
    unfold ofWord
    split
    · next k hk => exact absurd (Keyword.spelling_of_ofSpelling? hk).symm (h k)
    · rfl

/-- A word is a keyword or an identifier and nothing else. -/
theorem ofWord_ne {k : TokenKind} (hi : k ≠ identifier) (hk : k.isKeyword = false) (t : Text) :
    ofWord t ≠ k := by
  rintro rfl
  unfold ofWord at hi hk
  cases h : Keyword.ofSpelling? t with
  | some w => simp [h, isKeyword] at hk
  | none => simp [h] at hi

end TokenKind

end ScriptLexer
