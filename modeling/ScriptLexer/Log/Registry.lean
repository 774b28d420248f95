import ScriptLexer.Log.Level

/-! # Loggers

Loggers are known by name. The points in a name make it a child of shorter names, and a logger with
no level of its own takes that of its nearest ancestor; the root logger is the last ancestor of all.
A logger is configured once: it gets a level and a handler and passes nothing on. A record is written
by the handlers of its logger and of the ancestors that it is passed on to. Whether a logger writes
records of some severity is decided at the first of them and holds until a level is set, even if the
logger gets a new parent meanwhile. -/

namespace ScriptLexer.Log

/-- A logger. It writes records if it has a handler. -/
structure Logger where
  name : Text
  level : Int := unset
  handlers : Nat := 0
  propagates : Bool := true
deriving DecidableEq, Repr

/-- Gives a logger a level and a handler of its own. -/
def Logger.configure (level : Int) (l : Logger) : Logger :=
  { l with level, handlers := l.handlers + 1, propagates := false }

def Logger.isConfigured (l : Logger) : Bool :=
  l.handlers ≠ 0

/-- The name of the root logger. -/
def rootName : Text :=
  "root".toList

/-- Whether a logger writes the records of a severity, as it was decided. -/
structure Decision where
  logger : Text
  severity : Severity
  isWritten : Bool
deriving DecidableEq, Repr

/-- The loggers that there are, oldest first, besides the root logger, and what has been decided
since a level was last set. -/
structure Registry where
  root : Logger := { name := rootName, level := usual }
  loggers : List Logger := []
  decisions : List Decision := []
deriving DecidableEq, Repr

/-! ## Ancestors -/

/-- The names of the ancestors of a name that is given backwards, nearest first: what stands before a
point, if anything does. The last character of an ancestor's name is not looked at again, so of two
points in a row only the second counts. -/
def ancestorsOfReversed : Text → List Text
  | [] => []
  | '.' :: c :: before => (c :: before).reverse :: ancestorsOfReversed before
  | _ :: before => ancestorsOfReversed before

/-- The names of the ancestors of a name, nearest first. -/
def ancestorNames (name : Text) : List Text :=
  ancestorsOfReversed name.reverse

theorem length_of_mem_ancestorsOfReversed (t : Text) :
    ∀ a ∈ ancestorsOfReversed t, a.length < t.length := by
  fun_induction ancestorsOfReversed t with
  | case1 => simp
  | case2 c before ih =>
    intro a ha
    rcases List.mem_cons.mp ha with rfl | ha
    · simp
    · have := ih a ha
      simp only [List.length_cons]
      omega
  | case3 c before _ ih =>
    intro a ha
    have := ih a ha
    simp only [List.length_cons]
    omega

/-- An ancestor's name is shorter, so going from ancestor to ancestor ends. -/
theorem length_of_mem_ancestorNames {name a : Text} (h : a ∈ ancestorNames name) :
    a.length < name.length := by
  simpa using length_of_mem_ancestorsOfReversed name.reverse a h

namespace Registry

/-- Whether a name stands for the root logger. -/
def isRootName (name : Text) : Bool :=
  name = [] || name = rootName

/-- The logger with a given name, other than the root logger. -/
def find? (r : Registry) (name : Text) : Option Logger :=
  r.loggers.find? fun l => l.name = name

/-- Whether a logger takes another for its parent: the one that came later joins the older, but a
child of the root logger stays there when the newcomer's name is a beginning of the root's. -/
def joins (r : Registry) (child parent : Text) : Bool :=
  match r.loggers.find? fun l => l.name = child || l.name = parent with
  | some first => first.name = parent || !parent.isPrefixOf rootName
  | none => false

/-- The name of the parent of a logger, unless that is the root logger. -/
def parentName? (r : Registry) (name : Text) : Option Text :=
  (ancestorNames name).find? fun a => (r.find? a).isSome && r.joins name a

theorem length_of_parentName? {r : Registry} {name parent : Text}
    (h : r.parentName? name = some parent) : parent.length < name.length :=
  length_of_mem_ancestorNames (List.mem_of_find?_eq_some h)

/-- The level that counts for a logger other than the root logger. -/
def levelBelowRoot (r : Registry) (name : Text) : Int :=
  let own := ((r.find? name).map Logger.level).getD unset
  if own ≠ unset then own
  else
    match _h : r.parentName? name with
    | some parent => r.levelBelowRoot parent
    | none => r.root.level
termination_by name.length
decreasing_by exact length_of_parentName? (by assumption)

/-- The level that counts for a logger. -/
def effectiveLevel (r : Registry) (name : Text) : Int :=
  if isRootName name then r.root.level else r.levelBelowRoot name

/-! ## Getting loggers and setting levels -/

/-- The logger with a given name, new if there is none. -/
def logger (r : Registry) (name : Text) : Logger :=
  if isRootName name then r.root else (r.find? name).getD { name }

/-- The registry with a logger of a given name in it. -/
def create (r : Registry) (name : Text) : Registry :=
  if isRootName name || (r.find? name).isSome then r
  else { r with loggers := r.loggers ++ [{ name }] }

/-- Changes the logger with a given name. -/
def update (r : Registry) (name : Text) (f : Logger → Logger) : Registry :=
  if isRootName name then { r with root := f r.root }
  else { r with loggers := r.loggers.map fun l => if l.name = name then f l else l }

/-- The registry with nothing decided. -/
def undecided (r : Registry) : Registry :=
  { r with decisions := [] }

/-- Gets a logger, configured by the environment unless it is already. If that is refused, the logger
stays unconfigured. -/
def get (r : Registry) (name : Text) (setting : Option Text) :
    Except LevelError Logger × Registry :=
  let l := r.logger name
  let known := r.create name
  if l.isConfigured then (.ok l, known)
  else
    match levelOfSetting setting with
    | .ok level => (.ok (l.configure level), (known.update name (Logger.configure level)).undecided)
    | .error e => (.error e, known)

/-- The beginning of the names of the loggers that levels are set for. -/
def family : Text :=
  "joxy".toList

/-- Whether setting levels reaches a logger. -/
def isReached (l : Logger) : Bool :=
  family.isPrefixOf l.name && l.isConfigured

/-- Sets the level of every configured logger of the family. -/
def setLevelTo (r : Registry) (level : Int) : Registry :=
  { r.undecided with loggers := r.loggers.map fun l => if isReached l then { l with level } else l }

/-- Sets levels as a call asks for it. A level that is unknown is refused as soon as there is a logger
to set it for. -/
def setLevel (r : Registry) (choice : LevelChoice) : Except LevelError Registry :=
  if r.loggers.any isReached then choice.level.map r.setLevelTo else .ok r

/-! ## Writing -/

/-- The loggers that have been configured, the root logger first if it has. -/
def configured (r : Registry) : List Logger :=
  (r.root :: r.loggers).filter Logger.isConfigured

/-- The configured logger with a given name. -/
def configured? (r : Registry) (name : Text) : Option Logger :=
  r.configured.find? fun l => l.name = name

end Registry

/-- Something to be logged. -/
structure Record where
  logger : Text
  severity : Severity
  message : Text
deriving DecidableEq, Repr

/-- The time in every line. The clock is not read, so equal runs have equal logs. -/
def timeStamp : Text :=
  "1970-01-01 00:00:00,000".toList

/-- The line of a record. -/
def Record.line (e : Record) : Text :=
  timeStamp ++ " [".toList ++ e.severity.name ++ "] ".toList ++ e.logger ++ ": ".toList ++
    Text.asLine e.message

/-- A record for a logger that was never configured. -/
structure UnknownLogger where
  name : Text
deriving DecidableEq, Repr

def UnknownLogger.message (e : UnknownLogger) : Text :=
  Text.quoted e.name

namespace Registry

/-- What has been decided about a logger and a severity. -/
def decided? (r : Registry) (name : Text) (s : Severity) : Option Bool :=
  (r.decisions.find? fun d => d.logger = name && d.severity = s).map Decision.isWritten

/-- Whether a logger writes the records of a severity: as decided, or by the level that counts. -/
def isEnabled (r : Registry) (name : Text) (s : Severity) : Bool :=
  (r.decided? name s).getD (r.effectiveLevel name ≤ s.level)

/-- The registry in which that is decided. -/
def decideFor (r : Registry) (name : Text) (s : Severity) : Registry :=
  if (r.decided? name s).isSome then r
  else { r with decisions := ⟨name, s, r.isEnabled name s⟩ :: r.decisions }

/-- How many handlers a record of a logger comes to: those of the logger itself, and as long as
records are passed on, those of its ancestors. -/
def handlersReached (r : Registry) (name : Text) : Nat :=
  let l := r.logger name
  if l.propagates && !isRootName name then
    l.handlers +
      match _h : r.parentName? name with
      | some parent => r.handlersReached parent
      | none => r.root.handlers
  else l.handlers
termination_by name.length
decreasing_by exact length_of_parentName? (by assumption)

/-- What is written for a record: its line, once by every handler that it comes to. -/
def lines (r : Registry) (e : Record) : List Text :=
  if r.isEnabled e.logger e.severity then List.replicate (r.handlersReached e.logger) e.line else []

/-- Writes a record by a logger that has to be configured. -/
def emit (r : Registry) (e : Record) : Except UnknownLogger (List Text) × Registry :=
  if (r.configured? e.logger).isSome then (.ok (r.lines e), r.decideFor e.logger e.severity)
  else (.error ⟨e.logger⟩, r)

end Registry

end ScriptLexer.Log
