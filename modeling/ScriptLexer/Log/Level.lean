import ScriptLexer.Text.Quoted

/-! # Log levels

A level is a number: a logger writes the records whose level is at least its own. Some levels have
names, by which they can be asked for in the environment or by a call. -/

namespace ScriptLexer.Log

/-- The levels that records are made at. -/
inductive Severity where
  | debug
  | info
  | warning
  | error
  | critical
deriving DecidableEq, Repr

namespace Severity

def all : List Severity :=
  [debug, info, warning, error, critical]

def level : Severity → Int
  | debug => 10
  | info => 20
  | warning => 30
  | error => 40
  | critical => 50

def name : Severity → Text
  | debug => "DEBUG".toList
  | info => "INFO".toList
  | warning => "WARNING".toList
  | error => "ERROR".toList
  | critical => "CRITICAL".toList

end Severity

/-- The level of a logger that leaves its level to others. -/
def unset : Int := 0

/-- The level where none is asked for. -/
def usual : Int :=
  Severity.warning.level

/-- The names of levels. -/
def levelNames : List (String × Int) :=
  [("CRITICAL", 50), ("FATAL", 50), ("ERROR", 40), ("WARNING", 30), ("WARN", 30), ("INFO", 20),
   ("DEBUG", 10), ("NOTSET", unset)]

/-- The level with a given name. -/
def levelOfName? (name : Text) : Option Int :=
  levelNames.lookup (String.ofList name)

/-- What was given for a level and is none: a text that names no level, or something else, as it is
shown. -/
inductive LevelError where
  | unknownName (given : Text)
  | noLevel (shown : Text)
deriving DecidableEq, Repr

def LevelError.message : LevelError → Text
  | unknownName given => "Unknown level: ".toList ++ Text.quoted given
  | noLevel shown => "Level not an integer or a valid string: ".toList ++ shown

/-- A level as it is given in a call: a number or a name. -/
inductive LevelChoice where
  | number (level : Int)
  | name (name : Text)
deriving DecidableEq, Repr

/-- The level that a call asks for. -/
def LevelChoice.level : LevelChoice → Except LevelError Int
  | number level => .ok level
  | name t =>
    match levelOfName? t with
    | some level => .ok level
    | none => .error (.unknownName t)

/-! ## Levels from the environment -/

/-- A letter in capitals, as far as names of levels are concerned. Besides the ASCII letters, the
dotless i, the long s and the ligatures of s and t have ASCII capitals. -/
def capitals (c : Char) : Text :=
  if c = 'ı' then ['I']
  else if c = 'ſ' then ['S']
  else if c = 'ﬅ' || c = 'ﬆ' then ['S', 'T']
  else [c.toUpper]

/-- The form of log lines, which has a name among those of the levels. -/
def lineForm : Text :=
  "%(levelname)s:%(name)s:%(message)s".toList

/-- The forms that log lines could be given, which have a name among those of the levels too. -/
def lineForms : Text :=
  '\x7b' ::
    "'%': (<class 'logging.PercentStyle'>, '%(levelname)s:%(name)s:%(message)s'), ".toList ++
    "'\x7b': (<class 'logging.StrFormatStyle'>, ".toList ++
    "'\x7blevelname\x7d:\x7bname\x7d:\x7bmessage\x7d'), ".toList ++
    "'$': (<class 'logging.StringTemplateStyle'>, ".toList ++
    "'$\x7blevelname\x7d:$\x7bname\x7d:$\x7bmessage\x7d')".toList ++ ['\x7d']

/-- Settings that stand for something, but for no level. -/
def refusedSettings : List (String × LevelError) :=
  [("BASIC_FORMAT", .unknownName lineForm), ("_STYLES", .noLevel lineForms)]

/-- The level that the environment asks for, in letters of either case. A setting that stands for
nothing counts as the usual level; one that stands for something else is refused. -/
def levelOfSetting (setting : Option Text) : Except LevelError Int :=
  match setting with
  | none => .ok usual
  | some s =>
    let name := s.flatMap capitals
    match refusedSettings.lookup (String.ofList name) with
    | some e => .error e
    | none => .ok ((levelOfName? name).getD usual)

end ScriptLexer.Log
