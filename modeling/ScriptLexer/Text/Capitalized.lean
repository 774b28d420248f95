import ScriptLexer.Text.Case.Title
import ScriptLexer.Text.Case.Lower
import ScriptLexer.Text.Case.Context

/-! # Capitalized text

The first character in title case and all others in lower case. A capital sigma after the first
character becomes the final sigma at the end of a word: after a letter, and before none, where
marks on either side are looked through. -/

namespace ScriptLexer.Text

/-- Whether the nearest character that is not looked through is a letter. -/
def meetsLetter (t : Text) : Bool :=
  match t.dropWhile isCaseIgnorable with
  | [] => false
  | c :: _ => isCased c

/-- Lower case of the text that follows `before`, which is kept nearest character first. -/
def lowerAfter (before : Text) : Text → Text
  | [] => []
  | c :: rest =>
    let lowered :=
      if c = 'Σ' then
        if meetsLetter before && !meetsLetter rest then ['ς'] else ['σ']
      else lowerCase c
    lowered ++ lowerAfter (c :: before) rest

/-- The text with its first character in title case and the rest in lower case. -/
def capitalized : Text → Text
  | [] => []
  | c :: rest => titleCase c ++ lowerAfter [c] rest

end ScriptLexer.Text
