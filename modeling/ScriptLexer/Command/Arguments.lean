import ScriptLexer.Command.Word
import ScriptLexer.Files.Reading

/-! # Arguments

Options are acted on in the order in which they stand. Scripts may stand anywhere, but only in one
place: once an option has followed them, further ones are not recognised. What is not recognised is
an error only when everything else has been acted on, so help can still be had. -/

namespace ScriptLexer.Command

/-- What the arguments of the command ask for. -/
structure Arguments where
  scripts : List Text := []
  encoding : EncodingChoice := .platform
  isVerbose : Bool := false
deriving DecidableEq, Repr

/-- What comes of a command line. -/
inductive Parsed where
  | arguments (a : Arguments)
  | help
  | misuse
deriving DecidableEq, Repr

/-- The place for scripts: not reached, being read, or passed. -/
inductive Place where
  | ahead
  | here
  | behind
deriving DecidableEq, Repr

/-- The arguments so far. -/
structure Progress where
  arguments : Arguments := {}
  place : Place := .ahead
  isRecognised : Bool := true
deriving DecidableEq, Repr

namespace Progress

/-- After words that are scripts, if there is a place for them. -/
def scripts (ts : List Text) (p : Progress) : Progress :=
  if p.place = .behind then { p with isRecognised := false }
  else
    { p with
      place := .here
      arguments := { p.arguments with scripts := p.arguments.scripts ++ ts } }

/-- After an option. -/
def option (p : Progress) : Progress :=
  { p with place := if p.place = .here then .behind else p.place }

/-- After an option for an encoding. Two dashes are no value, even where they are attached: they only
stand between words, so `--encoding=--` leaves no name. Of the two readings of such a word this is the
earlier one; the later one, which takes attached dashes for a name, is not modelled. -/
def encoding (value : Text) (p : Progress) : Progress :=
  let choice : EncodingChoice := if value = separatorText then .nameless else .named value
  { p.option with arguments := { p.arguments with encoding := choice } }

def verbose (p : Progress) : Progress :=
  { p.option with arguments := { p.arguments with isVerbose := true } }

def unrecognised (p : Progress) : Progress :=
  { p.option with isRecognised := false }

/-- Acts on words, one after the other. -/
def parse (p : Progress) : List Word → Parsed
  | [] => if p.isRecognised then .arguments p.arguments else .misuse
  | .plain t :: rest => parse (p.scripts [t]) rest
  | .separator :: rest => parse (p.scripts []) rest
  | .letters t :: rest =>
    match letterChoices t with
    | none => .misuse
    | some options => if .help ∈ options then .help else parse p.verbose rest
  | .named .help none :: _ => .help
  | .named .verbose none :: rest => parse p.verbose rest
  | .named .encoding (some name) :: rest => parse (p.encoding name) rest
  | .named .encoding none :: .plain name :: rest => parse (p.encoding name) rest
  | .named _ _ :: _ => .misuse
  | .ambiguous :: _ => .misuse
  | .unknown :: rest => parse p.unrecognised rest

end Progress

/-- What a command line asks for. A name that fits several options is an error before anything is
acted on. -/
def parseArguments (line : List Text) : Parsed :=
  let words := wordsOf line
  if .ambiguous ∈ words then .misuse else ({} : Progress).parse words

end ScriptLexer.Command
