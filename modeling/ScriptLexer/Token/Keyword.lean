import ScriptLexer.Text.Basic

/-! # Keywords

The sixteen words that are reserved and so are no identifiers. -/

namespace ScriptLexer

/-- A reserved word. -/
inductive Keyword where
  | andWord
  | classWord
  | elseWord
  | falseWord
  | funWord
  | forWord
  | ifWord
  | nilWord
  | orWord
  | printWord
  | returnWord
  | superWord
  | thisWord
  | trueWord
  | varWord
  | whileWord
deriving DecidableEq, Repr

namespace Keyword

/-- All keywords, in the order in which token kinds are numbered. -/
def all : List Keyword :=
  [andWord, classWord, elseWord, falseWord, funWord, forWord, ifWord, nilWord, orWord, printWord,
   returnWord, superWord, thisWord, trueWord, varWord, whileWord]

/-- The word itself. -/
def spelling : Keyword → Text
  | andWord => ['a', 'n', 'd']
  | classWord => ['c', 'l', 'a', 's', 's']
  | elseWord => ['e', 'l', 's', 'e']
  | falseWord => ['f', 'a', 'l', 's', 'e']
  | funWord => ['f', 'u', 'n']
  | forWord => ['f', 'o', 'r']
  | ifWord => ['i', 'f']
  | nilWord => ['n', 'i', 'l']
  | orWord => ['o', 'r']
  | printWord => ['p', 'r', 'i', 'n', 't']
  | returnWord => ['r', 'e', 't', 'u', 'r', 'n']
  | superWord => ['s', 'u', 'p', 'e', 'r']
  | thisWord => ['t', 'h', 'i', 's']
  | trueWord => ['t', 'r', 'u', 'e']
  | varWord => ['v', 'a', 'r']
  | whileWord => ['w', 'h', 'i', 'l', 'e']

/-- The name of a keyword in printed tokens: the word in capitals. -/
def name (k : Keyword) : Text :=
  k.spelling.map Char.toUpper

/-- The keyword with a given spelling. -/
def ofSpelling? (t : Text) : Option Keyword :=
  all.find? fun k => k.spelling = t

theorem mem_all (k : Keyword) : k ∈ all := by
  cases k <;> decide

theorem spelling_of_ofSpelling? {t : Text} {k : Keyword} (h : ofSpelling? t = some k) :
    k.spelling = t := by
  simpa using List.find?_some h

theorem ofSpelling?_spelling (k : Keyword) : ofSpelling? k.spelling = some k := by
  cases k <;> decide

end Keyword

end ScriptLexer
