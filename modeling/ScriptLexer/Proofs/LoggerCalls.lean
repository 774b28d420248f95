import ScriptLexer.Proofs.LoggerNames

/-! # What calls do to loggers

A call configures a logger, sets the levels of those it reaches, or leaves all loggers as they are. Of
the registry it keeps that loggers have names of their own, and that what has been decided is what the
levels say. -/

namespace ScriptLexer.Log

open Registry (isRootName)
open scoped List

/-- Sets the level of a logger, if it is one that levels are set for. -/
def Logger.relevel (level : Int) (l : Logger) : Logger :=
  if Registry.isReached l then { l with level } else l

theorem Logger.name_relevel (level : Int) (l : Logger) : (l.relevel level).name = l.name := by
  unfold relevel
  split <;> rfl

theorem loggerName_of_isRootName {name : Text} (h : isRootName name = true) :
    loggerName name = rootName :=
  if_pos h

theorem loggerName_of_not_isRootName {name : Text} (h : isRootName name = false) :
    loggerName name = name :=
  if_neg (by simp [h])

theorem isRootName_loggerName {name : Text} : isRootName (loggerName name) = isRootName name := by
  unfold loggerName
  split
  · rename_i h
    rw [h]
    rfl
  · rfl

namespace Registry

section

variable {r : Registry} {name other : Text}

/-! ## Seeing loggers -/

theorem find?_map {f : Logger → Logger} (hf : ∀ l, (f l).name = l.name) (loggers : List Logger) :
    (loggers.map f).find? (fun l => l.name = name) =
      (loggers.find? fun l => l.name = name).map f := by
  rw [List.find?_map]
  congr 2
  funext l
  simp [hf]

theorem root_create : (r.create name).root = r.root := by
  unfold create
  split <;> rfl

/-- Names that stand for the same logger see the same. -/
theorem logger_congr (h : loggerName other = loggerName name) : r.logger other = r.logger name := by
  have hroot : isRootName other = isRootName name := by
    rw [← isRootName_loggerName, h, isRootName_loggerName]
  cases hn : isRootName name with
  | true => rw [logger_of_isRootName hn, logger_of_isRootName (hroot.trans hn)]
  | false =>
    rw [loggerName_of_not_isRootName hn, loggerName_of_not_isRootName (hroot.trans hn)] at h
    rw [h]

theorem logger_create : (r.create name).logger other = r.logger other := by
  unfold create
  split
  · rfl
  · simp only [logger, find?, List.find?_append]
    split
    · rfl
    · cases hf : r.loggers.find? fun l => decide (l.name = other) with
      | some l => rfl
      | none => by_cases hn : name = other <;> simp [hn]

theorem find?_create (h : isRootName name = false) :
    ((r.create name).find? name) = some (r.logger name) := by
  rw [logger_of_find? h]
  unfold create
  cases hf : r.find? name with
  | some l => simp [h, hf]
  | none =>
    rw [find?] at hf
    simp [h, find?, List.find?_append, hf]

theorem find?_update {f : Logger → Logger} (hf : ∀ l, (f l).name = l.name)
    (h : isRootName name = false) :
    (r.update name f).find? other =
      if other = name then (r.find? other).map f else r.find? other := by
  have hg : ∀ l, (if l.name = name then f l else l).name = l.name := by
    intro l
    split
    · exact hf l
    · rfl
  simp only [update, h, Bool.false_eq_true, if_false, find?, find?_map hg]
  cases hl : r.loggers.find? fun l => decide (l.name = other) with
  | none => simp
  | some l =>
    have hn : l.name = other := by simpa using List.find?_some hl
    simp only [Option.map_some, hn]
    split <;> rfl

/-- Changing a logger that is in the registry changes no other. -/
theorem logger_update_create {f : Logger → Logger} (hf : ∀ l, (f l).name = l.name) :
    ((r.create name).update name f).logger other =
      if loggerName other = loggerName name then f (r.logger name) else r.logger other := by
  cases hn : isRootName name with
  | true =>
    have hc : r.create name = r := by simp [create, hn]
    rw [hc, loggerName_of_isRootName hn, logger_of_isRootName hn]
    cases ho : isRootName other with
    | true =>
      rw [if_pos (loggerName_of_isRootName ho), logger_of_isRootName ho, update, if_pos hn]
    | false =>
      have hne : loggerName other ≠ rootName := by
        intro he
        rw [← isRootName_loggerName, he] at ho
        cases ho
      rw [if_neg hne, logger_of_find? ho, logger_of_find? ho, update, if_pos hn]
      rfl
  | false =>
    rw [loggerName_of_not_isRootName hn]
    cases ho : isRootName other with
    | true =>
      have hne : rootName ≠ name := by
        rintro rfl
        cases hn
      rw [loggerName_of_isRootName ho, if_neg hne, logger_of_isRootName ho, logger_of_isRootName ho,
        update, if_neg (by simp [hn]), root_create]
    | false =>
      rw [loggerName_of_not_isRootName ho, logger_of_find? ho, find?_update hf hn]
      split
      · rename_i he
        rw [he, find?_create hn]
        rfl
      · rw [← logger_of_find? ho, logger_create]

theorem logger_setLevelTo {level : Int} (hr : r.root.name = rootName) :
    (r.setLevelTo level).logger name = (r.logger name).relevel level := by
  cases hn : isRootName name with
  | true =>
    have hreach : isReached r.root = false := by
      rw [isReached, hr]
      rfl
    rw [logger_of_isRootName hn, logger_of_isRootName hn, Logger.relevel, hreach]
    rfl
  | false =>
    have hf : (r.setLevelTo level).find? name = (r.find? name).map (Logger.relevel level) :=
      find?_map (Logger.name_relevel level) r.loggers
    rw [logger_of_find? hn, logger_of_find? hn, hf]
    cases r.find? name with
    | none => simp [Logger.relevel, isReached, Logger.isConfigured]
    | some l => rfl

theorem logger_decideFor {s : Severity} : (r.decideFor name s).logger other = r.logger other := by
  unfold decideFor
  split <;> rfl

/-- Where setting levels reaches no logger, it reaches none by name. -/
theorem isReached_logger (hr : r.root.name = rootName) (h : r.loggers.any isReached = false) :
    isReached (r.logger name) = false := by
  cases hn : isRootName name with
  | true =>
    rw [logger_of_isRootName hn, isReached, hr]
    rfl
  | false =>
    rw [logger_of_find? hn]
    cases hl : r.find? name with
    | none => simp [isReached, Logger.isConfigured]
    | some l => simpa using List.any_eq_false.mp h l (List.mem_of_find?_eq_some hl)

/-! ## One call -/

/-- The loggers are the same. -/
def SameLoggers (r next : Registry) : Prop :=
  ∀ name, next.logger name = r.logger name

/-- What can come of a call, with the loggers that it leaves. -/
inductive Outcome (r : Registry) : Call → Except Refusal Answer → Registry → Prop
  | known {name setting next} (isConfigured : (r.logger name).isConfigured = true)
      (same : r.SameLoggers next) :
      Outcome r (.get name setting) (.ok (.logger (r.logger name))) next
  | configured {name setting level next} (isNew : (r.logger name).isConfigured = false)
      (chosen : levelOfSetting setting = .ok level)
      (changed : ∀ other, next.logger other =
        if loggerName other = loggerName name then (r.logger name).configure level
        else r.logger other) :
      Outcome r (.get name setting) (.ok (.logger ((r.logger name).configure level))) next
  | getRefused {name setting e next} (isNew : (r.logger name).isConfigured = false)
      (refused : levelOfSetting setting = .error e) (same : r.SameLoggers next) :
      Outcome r (.get name setting) (.error (.level e)) next
  | levelSet {choice level next} (chosen : choice.level = .ok level)
      (changed : ∀ name, next.logger name = (r.logger name).relevel level) :
      Outcome r (.set choice) (.ok .done) next
  | noneReached {choice next} (unreached : ∀ name, isReached (r.logger name) = false)
      (same : r.SameLoggers next) : Outcome r (.set choice) (.ok .done) next
  | setRefused {choice e next} (refused : choice.level = .error e) (same : r.SameLoggers next) :
      Outcome r (.set choice) (.error (.level e)) next
  | written {e next} (isConfigured : (r.configured? e.logger).isSome = true)
      (same : r.SameLoggers next) : Outcome r (.emit e) (.ok (.written (r.lines e))) next
  | writeRefused {e next} (isUnknown : (r.configured? e.logger).isSome = false)
      (same : r.SameLoggers next) : Outcome r (.emit e) (.error (.logger ⟨e.logger⟩)) next

theorem outcome_get {setting : Option Text} :
    r.Outcome (.get name setting) (r.call (.get name setting)).1
      (r.call (.get name setting)).2 := by
  simp only [call, get]
  cases hc : (r.logger name).isConfigured with
  | true => exact .known hc fun _ => logger_create
  | false =>
    simp only [Bool.false_eq_true, if_false]
    cases hl : levelOfSetting setting with
    | error e => exact .getRefused hc hl fun _ => logger_create
    | ok level => exact .configured hc hl fun _ => logger_update_create fun _ => rfl

theorem outcome_set {choice : LevelChoice} (hr : r.root.name = rootName) :
    r.Outcome (.set choice) (r.call (.set choice)).1 (r.call (.set choice)).2 := by
  simp only [call, setLevel]
  cases hany : r.loggers.any isReached with
  | false => exact .noneReached (fun _ => isReached_logger hr hany) fun _ => rfl
  | true =>
    cases hl : choice.level with
    | error e => exact .setRefused hl fun _ => rfl
    | ok level => exact .levelSet hl fun _ => logger_setLevelTo hr

theorem outcome_emit {e : Record} :
    r.Outcome (.emit e) (r.call (.emit e)).1 (r.call (.emit e)).2 := by
  simp only [call, emit]
  cases hc : (r.configured? e.logger).isSome with
  | true => exact .written hc fun _ => logger_decideFor
  | false => exact .writeRefused hc fun _ => rfl

/-- Every call comes to one of these outcomes. -/
theorem outcome_call (hr : r.root.name = rootName) (c : Call) :
    r.Outcome c (r.call c).1 (r.call c).2 := by
  cases c with
  | get name setting => exact outcome_get
  | set choice => exact outcome_set hr
  | emit e => exact outcome_emit

end

/-! ## What every call keeps -/

/-- Loggers have names of their own, and what has been decided is what the levels say, where they can
be found by name. -/
structure Sound (r : Registry) : Prop where
  root_name : r.root.name = rootName
  root_apart : r.RootStandsApart
  names_nodup : (r.loggers.map Logger.name).Nodup
  decided : ∀ d ∈ r.decisions, r.HasLevelByNames d.logger →
    d.isWritten = decide (r.levelByNames d.logger ≤ d.severity.level)

section

variable {r next : Registry} {name : Text}

theorem firstLevel_congr (h : r.SameLoggers next) (names : List Text) :
    next.firstLevel names = r.firstLevel names := by
  have hroot : next.root = r.root := h rootName
  induction names with
  | nil => rw [firstLevel, firstLevel, hroot]
  | cons a rest ih => rw [firstLevel, firstLevel, h a, ih]

theorem levelByNames_congr (h : r.SameLoggers next) : next.levelByNames name = r.levelByNames name :=
  firstLevel_congr h _

theorem Sound.empty : Sound {} where
  root_name := rfl
  root_apart := by simp [RootStandsApart]
  names_nodup := by simp
  decided := by simp

/-- Whatever has been decided, a registry with the same names and nothing decided is sound. -/
theorem Sound.of_names (hs : r.Sound) (hroot : next.root.name = r.root.name)
    (hnames : next.loggers.map Logger.name = r.loggers.map Logger.name)
    (hd : next.decisions = []) : next.Sound where
  root_name := hroot.trans hs.root_name
  root_apart := by
    rw [RootStandsApart, hnames]
    exact hs.root_apart
  names_nodup := hnames ▸ hs.names_nodup
  decided := by simp [hd]

/-- A new logger asks for no level, and where links are missing it mends none. -/
theorem Sound.create (hs : r.Sound) : (r.create name).Sound := by
  cases hnew : isRootName name || (r.find? name).isSome with
  | true =>
    rw [Registry.create, if_pos hnew]
    exact hs
  | false =>
    obtain ⟨hn, hf⟩ : isRootName name = false ∧ r.find? name = none := by simpa using hnew
    have heq : r.create name = { r with loggers := r.loggers ++ [{ name }] } := by
      simp [Registry.create, hn, hf]
    have hnames : (r.create name).loggers.map Logger.name = r.loggers.map Logger.name ++ [name] := by
      simp [heq]
    have hmem : name ∉ r.loggers.map Logger.name := by
      intro hm
      obtain ⟨l, hl, rfl⟩ := List.mem_map.mp hm
      simpa using List.find?_eq_none.mp hf l hl
    refine ⟨?_, ?_, ?_, ?_⟩
    · rw [heq]
      exact hs.root_name
    · intro other ho
      rw [hnames] at ho
      rcases List.mem_append.mp ho with ho | ho
      · exact hs.root_apart other ho
      · rw [List.mem_singleton.mp ho, hn]
    · rw [hnames]
      exact List.nodup_append.mpr ⟨hs.names_nodup, List.pairwise_singleton _ name,
        fun a ha b hb he => hmem (by rwa [← List.mem_singleton.mp hb, ← he])⟩
    · intro d hd hl
      rw [levelByNames_congr fun _ => logger_create]
      refine hs.decided d (by rwa [heq] at hd) ?_
      rcases hl with hl | ⟨hp, hl⟩
      · exact .inl (by rwa [logger_create] at hl)
      · refine .inr ⟨hp, fun b hb a ha hroot hsub => hl b hb a ha hroot ?_⟩
        rw [hnames]
        exact hsub.trans (List.sublist_append_left _ _)

/-- Whether a record is written is what the levels say, as it was decided or as it is found now. -/
theorem Sound.isEnabled_eq (hs : r.Sound) (h : r.HasLevelByNames name) (s : Severity) :
    r.isEnabled name s = decide (r.levelByNames name ≤ s.level) := by
  unfold isEnabled decided?
  cases hd : r.decisions.find? fun d => d.logger = name && d.severity = s with
  | none => simp [effectiveLevel_eq hs.root_apart h]
  | some d =>
    have hmem := List.mem_of_find?_eq_some hd
    obtain ⟨rfl, rfl⟩ : d.logger = name ∧ d.severity = s := by simpa using List.find?_some hd
    simpa using hs.decided d hmem h

theorem Sound.decideFor (hs : r.Sound) (s : Severity) : (r.decideFor name s).Sound := by
  unfold Registry.decideFor
  split
  · exact hs
  · refine ⟨hs.root_name, hs.root_apart, hs.names_nodup, fun d hd h => ?_⟩
    have hsame : r.SameLoggers
        { r with decisions := ⟨name, s, r.isEnabled name s⟩ :: r.decisions } := fun _ => rfl
    rw [levelByNames_congr hsame]
    rcases List.mem_cons.mp hd with rfl | hd
    · exact hs.isEnabled_eq h s
    · exact hs.decided d hd h

theorem Sound.configure (hs : r.Sound) (level : Int) :
    (r.update name (Logger.configure level)).undecided.Sound := by
  unfold update
  split
  · exact hs.of_names rfl rfl rfl
  · refine hs.of_names rfl ?_ rfl
    simp only [undecided, List.map_map]
    refine List.map_congr_left fun l _ => ?_
    simp only [Function.comp_apply]
    split <;> rfl

theorem Sound.get (hs : r.Sound) (setting : Option Text) : (r.get name setting).2.Sound := by
  simp only [Registry.get]
  split
  · exact hs.create
  · cases levelOfSetting setting with
    | error e => exact hs.create
    | ok level => exact hs.create.configure level

theorem Sound.setLevelTo (hs : r.Sound) (level : Int) : (r.setLevelTo level).Sound := by
  refine hs.of_names rfl ?_ rfl
  simp only [Registry.setLevelTo, List.map_map]
  exact List.map_congr_left fun l _ => Logger.name_relevel level l

/-- One call keeps the registry sound. -/
theorem Sound.call (hs : r.Sound) (c : Call) : (r.call c).2.Sound := by
  cases c with
  | get name setting => exact hs.get setting
  | emit e =>
    simp only [Registry.call, emit]
    split
    · exact hs.decideFor e.severity
    · exact hs
  | set choice =>
    simp only [Registry.call, setLevel]
    cases r.loggers.any isReached with
    | false => exact hs
    | true =>
      cases choice.level with
      | error e => exact hs
      | ok level => exact hs.setLevelTo level

/-- So do all calls. -/
theorem Sound.after (hs : r.Sound) (calls : List Call) : (r.after calls).Sound :=
  after_induction hs (fun _ c hs => hs.call c) calls

end

end Registry

end ScriptLexer.Log
