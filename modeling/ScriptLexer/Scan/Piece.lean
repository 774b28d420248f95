import ScriptLexer.Scan.Lead

/-! # Pieces

A text falls into pieces: lexemes, comments, blanks, and characters that belong to none. A piece says
what it was read as and keeps the characters needed to give its text back. `Piece.read` takes the
first piece off a text; it is as long as it can be, and nothing is lost. -/

namespace ScriptLexer

/-- A stretch of a text. Bodies of strings and comments are without their delimiters; an open string
or comment is one whose end is missing. -/
inductive Piece where
  | symbol (s : Symbol)
  | blank (c : Char)
  | lineComment (body : Text)
  | blockComment (body : Text)
  | openComment (body : Text)
  | string (body : Text)
  | openString (body : Text)
  | number (whole : Text) (fraction : Option Text)
  | word (w : Text)
  | stray (c : Char)
deriving DecidableEq, Repr

/-! ## Ends of open constructs -/

/-- The body of a string whose opening quote has been read, and what follows its closing quote. -/
def splitString (t : Text) : Option (Text × Text) :=
  match t.dropWhile (· ≠ '\x22') with
  | [] => none
  | _ :: rest => some (t.takeWhile (· ≠ '\x22'), rest)

/-- The body of a block comment whose opening has been read, and what follows its end. The first
`*/` ends it; an opening inside has no meaning. -/
def splitComment : Text → Option (Text × Text)
  | '*' :: '/' :: rest => some ([], rest)
  | c :: rest => (splitComment rest).map fun (body, after) => (c :: body, after)
  | [] => none

/-- The digits of a fraction and what follows them. A point that no digit follows is no part of the
number. -/
def splitFraction : Text → Option (Text × Text)
  | '.' :: d :: rest =>
    if isDigit d then some (d :: rest.takeWhile isDigit, rest.dropWhile isDigit) else none
  | _ => none

theorem splitString_eq {t body rest : Text} (h : splitString t = some (body, rest)) :
    body ++ '\x22' :: rest = t := by
  unfold splitString at h
  split at h
  · cases h
  next c r hr =>
    have hc : c = '\x22' := by
      have hn : t.dropWhile (· ≠ '\x22') ≠ [] := by rw [hr]; exact List.cons_ne_nil c r
      have := List.head_dropWhile_not _ hn
      simp only [hr, List.head_cons] at this
      simpa using this
    cases h
    subst hc
    rw [← hr, List.takeWhile_append_dropWhile]

theorem splitComment_eq {t body rest : Text} (h : splitComment t = some (body, rest)) :
    body ++ '*' :: '/' :: rest = t := by
  fun_induction splitComment t generalizing body with
  | case1 r => cases h; rfl
  | case2 c r _ ih =>
    obtain ⟨⟨b, a⟩, hb, he⟩ := Option.map_eq_some_iff.1 h
    cases he
    simp [ih hb]
  | case3 => cases h

theorem splitFraction_eq {t digits rest : Text} (h : splitFraction t = some (digits, rest)) :
    '.' :: digits ++ rest = t := by
  unfold splitFraction at h
  split at h
  next d r =>
    split at h
    · cases h
      simp
    · cases h
  · cases h

namespace Piece

/-- The characters of a piece. -/
def text : Piece → Text
  | symbol s => s.spelling
  | blank c => [c]
  | lineComment body => '/' :: '/' :: body
  | blockComment body => '/' :: '*' :: body ++ ['*', '/']
  | openComment body => '/' :: '*' :: body
  | string body => '\x22' :: body ++ ['\x22']
  | openString body => '\x22' :: body
  | number whole none => whole
  | number whole (some fraction) => whole ++ '.' :: fraction
  | word w => w
  | stray c => [c]

/-! ## The first piece -/

/-- The piece after a slash, with the rest of the text. -/
def readSlash (rest : Text) : Piece × Text :=
  match rest with
  | '/' :: r => (lineComment (r.takeWhile (· ≠ '\n')), r.dropWhile (· ≠ '\n'))
  | '*' :: r =>
    match splitComment r with
    | some (body, after) => (blockComment body, after)
    | none => (openComment r, [])
  | _ => (symbol .slash, rest)

/-- The number that starts with the digit `c`, with the rest of the text. -/
def readNumber (c : Char) (rest : Text) : Piece × Text :=
  match splitFraction (rest.dropWhile isDigit) with
  | some (fraction, after) => (number (c :: rest.takeWhile isDigit) (some fraction), after)
  | none => (number (c :: rest.takeWhile isDigit) none, rest.dropWhile isDigit)

/-- The first piece of the text `c :: rest`, with the rest of the text. -/
def read (c : Char) (rest : Text) : Piece × Text :=
  match Lead.of c with
  | .symbol s => (symbol s, rest)
  | .equalSuffixed single double =>
    match rest with
    | '=' :: r => (symbol double, r)
    | _ => (symbol single, rest)
  | .slash => readSlash rest
  | .blank => (blank c, rest)
  | .quote =>
    match splitString rest with
    | some (body, after) => (string body, after)
    | none => (openString rest, [])
  | .digit => readNumber c rest
  | .letter => (word (c :: rest.takeWhile isWordCharacter), rest.dropWhile isWordCharacter)
  | .stray => (stray c, rest)

end Piece

end ScriptLexer
