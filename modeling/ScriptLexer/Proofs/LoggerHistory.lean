import Mathlib.Data.List.Induction
import Mathlib.Data.List.Nodup
import ScriptLexer.Proofs.LoggerCalls
import ScriptLexer.Run.Basic

/-! # Loggers and their history

What a logger is like follows from what was asked of the loggers so far. It is configured when it is
first got, at the level that the environment asks for at that time. Afterwards only setting levels
changes it, and only if it is of the family; getting it again does not, nor does any call that is
refused. -/

namespace ScriptLexer.Log

/-- Whether a call got the logger that a name stands for. -/
def Exchange.isGetOf (name : Text) : Exchange → Bool
  | ⟨.get other _, .ok _⟩ => loggerName other = loggerName name
  | _ => false

/-- The level that a call set. -/
def Exchange.levelSet? : Exchange → Option Int
  | ⟨.set choice, .ok _⟩ => choice.level.toOption
  | _ => none

/-- The level of a logger that was configured at a level, after what has come since. -/
def levelSince (name : Text) (level : Int) (later : List Exchange) : Int :=
  if Registry.family.isPrefixOf (loggerName name) then
    (later.filterMap Exchange.levelSet?).getLast?.getD level
  else level

/-- What a history makes of a logger: nobody got it and it is as it is at first, or it is configured
since it was first got. -/
inductive Story (name : Text) (h : List Exchange) : Logger → Prop
  | untouched (never : ∀ x ∈ h, x.isGetOf name = false) :
      Story name h (({} : Registry).logger name)
  | got {before later : List Exchange} {other : Text} {setting : Option Text} {answer : Answer}
      {level : Int} (split : h = before ++ ⟨.get other setting, .ok answer⟩ :: later)
      (never : ∀ x ∈ before, x.isGetOf name = false) (same : loggerName other = loggerName name)
      (chosen : levelOfSetting setting = .ok level) :
      Story name h
        { name := loggerName name, level := levelSince name level later, handlers := 1,
          propagates := false }

/-! ## One more call -/

section

variable {name other : Text} {level : Int} {h later : List Exchange} {x : Exchange} {l : Logger}

theorem levelSince_nil : levelSince name level [] = level := by
  simp [levelSince]

theorem levelSince_concat_of_none (hx : x.levelSet? = none) :
    levelSince name level (later ++ [x]) = levelSince name level later := by
  simp [levelSince, hx]

theorem levelSince_concat_of_some {new : Int} (hx : x.levelSet? = some new) :
    levelSince name level (later ++ [x]) =
      if Registry.family.isPrefixOf (loggerName name) then new else level := by
  simp [levelSince, hx]

theorem isConfigured_logger_empty : (({} : Registry).logger name).isConfigured = false := by
  unfold Registry.logger
  split <;> rfl

theorem Story.never_of_not_isConfigured (hs : Story name h l) (hl : l.isConfigured = false) :
    (∀ x ∈ h, x.isGetOf name = false) ∧ l = ({} : Registry).logger name := by
  cases hs with
  | untouched never => exact ⟨never, rfl⟩
  | got => cases hl

theorem never_concat (never : ∀ x ∈ h, x.isGetOf name = false) (hx : x.isGetOf name = false) :
    ∀ y ∈ h ++ [x], y.isGetOf name = false := by
  intro y hy
  rcases List.mem_append.mp hy with hy | hy
  · exact never y hy
  · rw [List.mem_singleton.mp hy, hx]

/-- A call that neither gets a logger for the first time nor sets levels adds nothing to its story. -/
theorem Story.concat (hs : Story name h l) (hx : x.levelSet? = none)
    (hg : x.isGetOf name = true → l.isConfigured = true) : Story name (h ++ [x]) l := by
  cases hs with
  | untouched never =>
    refine .untouched (never_concat never ?_)
    by_contra hget
    rw [isConfigured_logger_empty] at hg
    cases hg (by simpa using hget)
  | @got before later other setting answer level split never same chosen =>
    have hsplit : h ++ [x] = before ++ ⟨.get other setting, .ok answer⟩ :: (later ++ [x]) := by
      simp [split]
    rw [← levelSince_concat_of_none hx]
    exact .got hsplit never same chosen

/-- Setting levels changes a story as it changes the logger. -/
theorem Story.concat_set {choice : LevelChoice} {result : Answer} (hs : Story name h l)
    (hl : choice.level = .ok level) :
    Story name (h ++ [⟨.set choice, .ok result⟩]) (l.relevel level) := by
  have hx : Exchange.levelSet? ⟨.set choice, .ok result⟩ = some level := by
    simp [Exchange.levelSet?, hl, Except.toOption]
  cases hs with
  | untouched never =>
    have hreach : Registry.isReached (({} : Registry).logger name) = false := by
      simp [Registry.isReached, isConfigured_logger_empty]
    rw [Logger.relevel, hreach]
    exact .untouched (never_concat never rfl)
  | @got before later other setting answer first split never same chosen =>
    have hsplit : h ++ [⟨.set choice, .ok result⟩] =
        before ++ ⟨.get other setting, .ok answer⟩ :: (later ++ [⟨.set choice, .ok result⟩]) := by
      simp [split]
    have hstory := Story.got hsplit never same chosen
    rw [levelSince_concat_of_some hx] at hstory
    -- a configured logger is reached exactly if its name is of the family
    unfold Logger.relevel Registry.isReached
    cases hf : Registry.family.isPrefixOf (loggerName name) with
    | true => simpa [hf, Logger.isConfigured] using hstory
    | false => simpa [hf, levelSince] using hstory

/-- A logger that nobody got before is configured by the first call that gets it. -/
theorem Story.concat_configure {setting : Option Text} {answer : Answer} (hs : Story name h l)
    (hl : l.isConfigured = false) (same : loggerName other = loggerName name)
    (chosen : levelOfSetting setting = .ok level) :
    Story name (h ++ [⟨.get other setting, .ok answer⟩]) (l.configure level) := by
  obtain ⟨never, rfl⟩ := hs.never_of_not_isConfigured hl
  have hstory := Story.got (h := h ++ [⟨.get other setting, .ok answer⟩]) rfl never same chosen
  rw [levelSince_nil] at hstory
  have hc : (({} : Registry).logger name).configure level =
      { name := loggerName name, level, handlers := 1, propagates := false } := by
    unfold Registry.logger loggerName
    split <;> rfl
  rw [hc]
  exact hstory

/-- Whatever comes of a call, the logger that it leaves is the one that the longer story tells of. -/
theorem Story.step {r next : Registry} {c : Call} {answer : Except Refusal Answer}
    (hs : Story name h (r.logger name)) (ho : r.Outcome c answer next) :
    Story name (h ++ [⟨c, answer⟩]) (next.logger name) := by
  cases ho with
  | @known other _ _ isConfigured same =>
    rw [same name]
    refine hs.concat rfl fun hget => ?_
    rw [← Registry.logger_congr (of_decide_eq_true hget), isConfigured]
  | @configured other _ level _ isNew chosen changed =>
    rw [changed name]
    split
    · rename_i hname
      rw [Registry.logger_congr hname.symm]
      rw [Registry.logger_congr hname.symm] at isNew
      exact hs.concat_configure isNew hname.symm chosen
    · rename_i hname
      refine hs.concat rfl fun hget => ?_
      exact absurd (of_decide_eq_true hget).symm hname
  | levelSet chosen changed =>
    rw [changed name]
    exact hs.concat_set chosen
  | @noneReached choice _ unreached same =>
    rw [same name]
    cases hl : choice.level with
    | error e =>
      refine hs.concat ?_ fun hget => by cases hget
      simp [Exchange.levelSet?, hl, Except.toOption]
    | ok level =>
      have hrelevel : (r.logger name).relevel level = r.logger name := by
        rw [Logger.relevel, unreached name]
        rfl
      rw [← hrelevel]
      exact hs.concat_set hl
  | getRefused _ _ same | setRefused _ same | written _ same | writeRefused _ same =>
    rw [same name]
    exact hs.concat rfl fun hget => by cases hget

/-- After any calls, every logger is the one that its story tells of. -/
theorem story_after (calls : List Call) (name : Text) :
    Story name (({} : Registry).history calls) ((({} : Registry).after calls).logger name) := by
  induction calls using List.reverseRecOn with
  | nil => exact .untouched fun x hx => by cases hx
  | append_singleton calls c ih =>
    rw [Registry.history_concat, Registry.after_concat]
    exact ih.step (Registry.outcome_call (Registry.Sound.empty.after calls).root_name c)

/-- A logger is configured since somebody first got it, and has one handler then. -/
theorem Story.isConfigured_iff (hs : Story name h l) :
    l.isConfigured = true ↔ ∃ x ∈ h, x.isGetOf name = true := by
  cases hs with
  | untouched never =>
    rw [isConfigured_logger_empty]
    refine iff_of_false Bool.false_ne_true fun ⟨x, hx, hget⟩ => ?_
    rw [never x hx] at hget
    cases hget
  | got split never same chosen =>
    refine iff_of_true rfl ⟨_, split ▸ List.mem_append_right _ List.mem_cons_self, ?_⟩
    exact decide_eq_true same

theorem Story.handlers_eq (hs : Story name h l) :
    l.handlers = if l.isConfigured then 1 else 0 := by
  cases hs with
  | untouched never =>
    have hl : (({} : Registry).logger name).isConfigured = false := isConfigured_logger_empty
    rw [hl]
    simpa [Logger.isConfigured] using hl
  | got => rfl

theorem Story.propagates_eq (hs : Story name h l) : l.propagates = !l.isConfigured := by
  cases hs with
  | untouched never =>
    rw [isConfigured_logger_empty]
    unfold Registry.logger
    split <;> rfl
  | got => rfl

theorem Story.name_eq (hs : Story name h l) : l.name = loggerName name := by
  cases hs with
  | untouched never =>
    unfold Registry.logger loggerName
    split <;> rfl
  | got => rfl

end

namespace Registry

/-! ## Writing -/

section

variable {r : Registry} {name : Text}

theorem handlersReached_of_not_propagates (h : (r.logger name).propagates = false) :
    r.handlersReached name = (r.logger name).handlers := by
  rw [handlersReached]
  simp [h]

/-- No logger is hidden by another. -/
theorem Sound.logger_name (hs : r.Sound) : ∀ l ∈ r.root :: r.loggers, r.logger l.name = l := by
  intro l hl
  rcases List.mem_cons.mp hl with rfl | hl
  · rw [hs.root_name]
    rfl
  · have hn := hs.root_apart l.name (List.mem_map_of_mem hl)
    rw [logger_of_find? hn]
    cases hf : r.find? l.name with
    | none => simpa using List.find?_eq_none.mp hf l hl
    | some found =>
      have hname : found.name = l.name := by simpa using List.find?_some hf
      exact List.inj_on_of_nodup_map hs.names_nodup (List.mem_of_find?_eq_some hf) hl hname

theorem mem_of_isConfigured (h : (r.logger name).isConfigured = true) :
    r.logger name ∈ r.root :: r.loggers := by
  cases hn : isRootName name with
  | true => exact logger_of_isRootName hn ▸ List.mem_cons_self
  | false =>
    rw [logger_of_find? hn] at h ⊢
    cases hf : r.find? name with
    | none =>
      rw [hf] at h
      cases h
    | some l => exact List.mem_cons_of_mem _ (List.mem_of_find?_eq_some hf)

theorem configured?_isSome (h : (r.logger name).isConfigured = true) :
    (r.configured? (r.logger name).name).isSome = true := by
  refine List.find?_isSome.mpr ⟨r.logger name, ?_, decide_eq_true rfl⟩
  exact List.mem_filter.mpr ⟨mem_of_isConfigured h, h⟩

end

end Registry

/-! ## The law of loggers -/

namespace Registry

variable {r : Registry} {name : Text}

/-- A record that comes to one handler is written once or not at all, and where the level of its logger
is found by names, that level says which. -/
theorem Sound.emit_eq (hs : r.Sound) {e : Record} (h : (r.configured? e.logger).isSome = true)
    (hone : r.handlersReached e.logger = 1) :
    ∃ isWritten : Bool,
      (r.call (.emit e)).1 = .ok (.written (if isWritten then [e.line] else [])) ∧
        (r.HasLevelByNames e.logger →
          (isWritten = true ↔ r.levelByNames e.logger ≤ e.severity.level)) := by
  refine ⟨r.isEnabled e.logger e.severity, ?_, fun hl => ?_⟩
  · simp only [Registry.call, emit, lines, h, hone, if_true]
    rfl
  · rw [hs.isEnabled_eq hl, decide_eq_true_iff]

theorem sameLoggers_of_refused (hr : r.root.name = rootName) {c : Call} {e : Refusal}
    (h : (r.call c).1 = .error e) : r.SameLoggers (r.call c).2 := by
  have ho := outcome_call hr c
  rw [h] at ho
  cases ho with
  | getRefused _ _ same | setRefused _ same | writeRefused _ same => exact same

end Registry

/-- The calls that a program begins with. -/
def beginning : List Call :=
  [.get scanLogger none, .get commandLogger none]

theorem after_beginning : ({} : Registry).after beginning = programLogs commandLogger usual := by
  rfl

/-- After any calls, no logger is hidden by another. Each has at most one handler, has one and passes
nothing on exactly if it was got, and is the one that its story tells of. A call that is refused
changes no logger. A record of a logger that was got comes to one handler and is written once or not at
all; where the level that counts is found by names, it is written exactly if it reaches that level. -/
theorem loggers_follow_their_history (calls : List Call) :
    let r := (programLogs commandLogger usual).after calls
    let h := ({} : Registry).history (beginning ++ calls)
    (∀ l ∈ r.root :: r.loggers, r.logger l.name = l) ∧
    (∀ name, (r.logger name).handlers ≤ 1 ∧
      ((r.logger name).handlers = 1 ∧ (r.logger name).propagates = false ↔
        ∃ x ∈ h, x.isGetOf name = true) ∧
      Story name h (r.logger name)) ∧
    (∀ c e, (r.call c).1 = .error e → r.SameLoggers (r.call c).2) ∧
    ∀ name severity message, (∃ x ∈ h, x.isGetOf name = true) →
      let e : Record := ⟨loggerName name, severity, message⟩
      r.handlersReached e.logger = 1 ∧
      ∃ isWritten : Bool,
        (r.call (.emit e)).1 = .ok (.written (if isWritten then [e.line] else [])) ∧
          (r.HasLevelByNames e.logger →
            (isWritten = true ↔ r.levelByNames e.logger ≤ severity.level)) := by
  intro r h
  have hr : ({} : Registry).after (beginning ++ calls) = r := by
    rw [Registry.after_append, after_beginning]
  have hs : r.Sound := hr ▸ Registry.Sound.empty.after _
  have hstory (name : Text) : Story name h (r.logger name) :=
    hr ▸ story_after (beginning ++ calls) name
  refine ⟨hs.logger_name, fun name => ⟨?_, ?_, hstory name⟩,
    fun c e => Registry.sameLoggers_of_refused hs.root_name, fun name severity message hgot => ?_⟩
  · rw [(hstory name).handlers_eq]
    split <;> decide
  · rw [← (hstory name).isConfigured_iff, (hstory name).handlers_eq, (hstory name).propagates_eq]
    cases (r.logger name).isConfigured <;> simp
  · have hc := (hstory name).isConfigured_iff.mpr hgot
    have hname := (hstory name).name_eq
    have hsee : r.logger (loggerName name) = r.logger name := by
      rw [← hname, hs.logger_name _ (Registry.mem_of_isConfigured hc)]
    have hsome := Registry.configured?_isSome hc
    rw [hname] at hsome
    have hone : r.handlersReached (loggerName name) = 1 := by
      rw [Registry.handlersReached_of_not_propagates, hsee, (hstory name).handlers_eq, if_pos hc]
      rw [hsee, (hstory name).propagates_eq, hc]
      rfl
    exact ⟨hone, hs.emit_eq hsome hone⟩

/-- A logger with no level of its own writes by that of an ancestor, which got it when it could be
had. -/
theorem inherited_level_is_found_by_name :
    let calls : List Call :=
      [.get "joxy".toList (some "basic_format".toList), .get "joxy".toList (some "info".toList),
        .get "joxy.x".toList (some "notset".toList)]
    let e : Record := ⟨"joxy.x".toList, .info, "m".toList⟩
    (((programLogs commandLogger usual).after calls).call (.emit e)).1 =
      .ok (.written [e.line]) := by
  intro calls e
  obtain ⟨-, -, -, hwritten⟩ := loggers_follow_their_history calls
  have hgot : ∃ x ∈ ({} : Registry).history (beginning ++ calls), x.isGetOf e.logger = true := by
    decide +kernel
  obtain ⟨-, isWritten, hemit, hlevel⟩ := hwritten e.logger e.severity e.message hgot
  have hname : loggerName e.logger = e.logger := by decide +kernel
  rw [hname] at hemit hlevel
  have hyes : isWritten = true := (hlevel (by decide +kernel)).mpr (by decide +kernel)
  rw [hemit, hyes, if_pos rfl]

/-- Without a link the level of an ancestor does not count: neither if the ancestor is got later and
its name is a beginning of the root's, nor across two points. -/
theorem unlinked_ancestors_have_no_say :
    (let r := (programLogs commandLogger usual).after
      [.get "r.x".toList (some "NOTSET".toList), .get "r".toList (some "DEBUG".toList)]
    let e : Record := ⟨"r.x".toList, .debug, "m".toList⟩
    r.levelByNames e.logger ≤ e.severity.level ∧ (r.call (.emit e)).1 = .ok (.written [])) ∧
    (let r := (programLogs commandLogger usual).after
      [.get "a".toList (some "DEBUG".toList), .get "a..b".toList (some "NOTSET".toList)]
    let e : Record := ⟨"a..b".toList, .debug, "m".toList⟩
    r.levelByNames e.logger ≤ e.severity.level ∧ (r.call (.emit e)).1 = .ok (.written [])) := by
  decide +kernel

end ScriptLexer.Log
