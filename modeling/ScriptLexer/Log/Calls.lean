import ScriptLexer.Log.Registry

/-! # Calls

What is asked of the loggers in the course of a program, call by call, and what the calls give back. -/

namespace ScriptLexer.Log

/-- Something asked of the loggers: one of them, with the environment as it is at the moment; a level
for all of the family; a record to be written. -/
inductive Call where
  | get (name : Text) (setting : Option Text)
  | set (choice : LevelChoice)
  | emit (e : Record)
deriving DecidableEq, Repr

/-- What a call gives back. -/
inductive Answer where
  | logger (l : Logger)
  | done
  | written (lines : List Text)
deriving DecidableEq, Repr

/-- Why a call fails. -/
inductive Refusal where
  | level (e : LevelError)
  | logger (e : UnknownLogger)
deriving DecidableEq, Repr

/-- A call and what came of it. -/
structure Exchange where
  call : Call
  answer : Except Refusal Answer

namespace Registry

/-- Does what a call asks for. -/
def call (r : Registry) : Call → Except Refusal Answer × Registry
  | .get name setting =>
    let (answer, next) := r.get name setting
    ((answer.map .logger).mapError .level, next)
  | .set choice =>
    match r.setLevel choice with
    | .ok next => (.ok .done, next)
    | .error e => (.error (.level e), r)
  | .emit e =>
    let (answer, next) := r.emit e
    ((answer.map .written).mapError .logger, next)

/-- The registry after some calls. -/
def after (r : Registry) (calls : List Call) : Registry :=
  calls.foldl (fun r c => (r.call c).2) r

/-- What came of some calls, one after the other. -/
def history (r : Registry) : List Call → List Exchange
  | [] => []
  | c :: rest => ⟨c, (r.call c).1⟩ :: (r.call c).2.history rest

variable {r : Registry} {first rest : List Call} {c : Call}

theorem after_append : r.after (first ++ rest) = (r.after first).after rest :=
  List.foldl_append

theorem history_append :
    r.history (first ++ rest) = r.history first ++ (r.after first).history rest := by
  induction first generalizing r with
  | nil => rfl
  | cons c first ih => simp only [List.cons_append, history, after, List.foldl_cons, ih]

theorem after_concat : r.after (first ++ [c]) = ((r.after first).call c).2 :=
  after_append

theorem history_concat :
    r.history (first ++ [c]) = r.history first ++ [⟨c, ((r.after first).call c).1⟩] :=
  history_append

/-- What holds at first and is kept by each call holds after all. -/
theorem after_induction {P : Registry → Prop} (h : P r) (step : ∀ r c, P r → P (r.call c).2)
    (calls : List Call) : P (r.after calls) := by
  induction calls generalizing r with
  | nil => exact h
  | cons c rest ih => exact ih (step r c h)

end Registry

end ScriptLexer.Log
