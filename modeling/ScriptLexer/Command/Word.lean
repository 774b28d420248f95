import ScriptLexer.Text.Basic
import ScriptLexer.Text.DecimalDigit

/-! # Words of a command line

Each word of a command line is told apart by itself, before any option is acted on: it is plain, or
asks for options by letters or by name. From a word of two dashes on all words are plain. -/

namespace ScriptLexer.Command

/-- The options of the command. -/
inductive Choice where
  | help
  | encoding
  | verbose
deriving DecidableEq, Repr

namespace Choice

def all : List Choice :=
  [help, encoding, verbose]

/-- The full name of an option. -/
def name : Choice → Text
  | help => "--help".toList
  | encoding => "--encoding".toList
  | verbose => "--verbose".toList

/-- The option that a letter asks for. -/
def ofLetter? : Char → Option Choice
  | 'h' => some help
  | 'v' => some verbose
  | _ => none

end Choice

/-- What a word is. The two dashes that make all later words plain are the separator; a name may have
a value attached to it. -/
inductive Word where
  | plain (t : Text)
  | separator
  | letters (t : Text)
  | named (option : Choice) (value : Option Text)
  | ambiguous
  | unknown
deriving DecidableEq, Repr

/-- Whether a word looks like a negative number, whole or with a point, in digits of any script. -/
def isNegativeNumber (t : Text) : Bool :=
  let isDigit (c : Char) : Bool := (Text.decimalDigit? c).isSome
  match t with
  | '-' :: rest =>
    let number := if rest.getLast? = some '\n' then rest.dropLast else rest
    match number.dropWhile isDigit with
    | [] => !number.isEmpty
    | '.' :: fraction => !fraction.isEmpty && fraction.all isDigit
    | _ => false
  | _ => false

namespace Word

/-- A word that starts with a dash and asks for no option. -/
def ofUnmatched (t : Text) : Word :=
  if isNegativeNumber t || ' ' ∈ t then plain t else unknown

/-- A word that starts with two dashes. Names may be cut short as long as they fit one option. -/
def ofName (t : Text) : Word :=
  let name := t.takeWhile (· ≠ '=')
  let value :=
    match t.dropWhile (· ≠ '=') with
    | _ :: v => some v
    | [] => none
  match Choice.all.filter fun o => name.isPrefixOf o.name with
  | [o] => named o value
  | [] => ofUnmatched t
  | _ => ambiguous

/-- What a word is that stands before any separator and is none. -/
def of (t : Text) : Word :=
  match t with
  | '-' :: '-' :: _ => ofName t
  | '-' :: c :: rest =>
    if (Choice.ofLetter? c).isSome then letters (c :: rest) else ofUnmatched t
  | _ => plain t

end Word

/-- The word that makes all later ones plain. -/
def separatorText : Text :=
  ['-', '-']

/-- The words of a command line. -/
def wordsOf : List Text → List Word
  | [] => []
  | t :: rest =>
    if t = separatorText then .separator :: rest.map .plain else Word.of t :: wordsOf rest

/-- The options that letters ask for, if each letter asks for one. An equals sign after the first
letter is passed over when letters follow it, so that `-v=v` asks for the same as `-v -v`. Of the two
readings of such a word this is the earlier one; the later one, which takes what follows the sign for
a value and refuses the word, is not modelled. -/
def letterChoices : Text → Option (List Choice)
  | c :: '=' :: d :: rest => (c :: d :: rest).mapM Choice.ofLetter?
  | t => t.mapM Choice.ofLetter?

end ScriptLexer.Command
