import ScriptLexer.Command.Basic
import ScriptLexer.Proofs.LoggerHistory

/-! # Whom setting levels reaches

A level that is set reaches the loggers of the family that somebody has got, and no others: neither the
root logger nor any logger of another name, be it got before, nor the command's own logger when the
command is run as a script. So after it all loggers that were got have the level only if those outside
the family had it by chance. -/

namespace ScriptLexer.Log

open Command (Start)

/-- The calls that a program begins with, as it is started. -/
def firstCalls (start : Start) : List Call :=
  [.get scanLogger none, .get start.logger none]

/-- Some call has got the logger that a name stands for. -/
def WasGot (h : List Exchange) (name : Text) : Prop :=
  ∃ x ∈ h, x.isGetOf name = true

instance (h : List Exchange) (name : Text) : Decidable (WasGot h name) :=
  inferInstanceAs (Decidable (∃ x ∈ h, x.isGetOf name = true))

/-- The logger that a name stands for is of the family. -/
def IsOfFamily (name : Text) : Prop :=
  Registry.family <+: loggerName name

instance (name : Text) : Decidable (IsOfFamily name) :=
  inferInstanceAs (Decidable (_ <+: _))

theorem after_firstCalls (start : Start) :
    ({} : Registry).after (firstCalls start) = programLogs start.logger usual := by
  cases start <;> rfl

section

variable {h : List Exchange} {name : Text} {l : Logger} {level : Int}

theorem Story.isReached_iff (hs : Story name h l) :
    Registry.isReached l = true ↔ WasGot h name ∧ IsOfFamily name := by
  rw [Registry.isReached, Bool.and_eq_true, hs.name_eq, List.isPrefixOf_iff_prefix,
    hs.isConfigured_iff, and_comm]
  rfl

theorem Logger.relevel_of_reached (hr : Registry.isReached l = true) :
    l.relevel level = { l with level } :=
  if_pos hr

theorem Logger.relevel_of_not_reached (hr : Registry.isReached l ≠ true) : l.relevel level = l :=
  if_neg hr

end

/-- Where some logger is reached, setting levels is refused only for a level that is none, and else
resets every logger that is reached. -/
theorem Registry.call_set_of_isReached {r : Registry} {name : Text} (hr : r.root.name = rootName)
    (hn : isReached (r.logger name) = true) (choice : LevelChoice) :
    (∃ level, choice.level = .ok level ∧ (r.call (.set choice)).1 = .ok .done ∧
      ∀ other, (r.call (.set choice)).2.logger other = (r.logger other).relevel level) ∨
    ∃ e, choice.level = .error e ∧ (r.call (.set choice)).1 = .error (.level e) := by
  have ho : r.Outcome (.set choice) _ _ := outcome_set hr
  generalize r.call (.set choice) = set at ho
  obtain ⟨answer, next⟩ := set
  cases ho with
  | levelSet chosen changed => exact .inl ⟨_, chosen, rfl, changed⟩
  | noneReached unreached =>
    rw [unreached name] at hn
    cases hn
  | setRefused refused => exact .inr ⟨_, refused, rfl⟩

/-- The logger of the scanner is got first of all. -/
theorem wasGot_scanLogger (start : Start) (calls : List Call) :
    WasGot (({} : Registry).history (firstCalls start ++ calls)) scanLogger := by
  rw [Registry.history_append]
  exact ⟨_, List.mem_append_left _ List.mem_cons_self, by decide +kernel⟩

/-- After any calls, levels are set unless what is asked for is none. Then the loggers of the family
that somebody has got have the level, and are otherwise as they were; all others are as they were. So
all loggers that were got have the level exactly if those outside the family had it before. -/
theorem levels_set_reach_the_family (start : Start) (calls : List Call) (choice : LevelChoice) :
    let r := (programLogs start.logger usual).after calls
    let h := ({} : Registry).history (firstCalls start ++ calls)
    let answer := (r.call (.set choice)).1
    let next := (r.call (.set choice)).2
    (answer = .ok .done ↔ ∃ level, choice.level = .ok level) ∧
    ∀ level, choice.level = .ok level →
      (∀ name, WasGot h name → IsOfFamily name → next.logger name = { r.logger name with level }) ∧
      (∀ name, ¬ (WasGot h name ∧ IsOfFamily name) → next.logger name = r.logger name) ∧
      ((∀ name, WasGot h name → (next.logger name).level = level) ↔
        ∀ name, WasGot h name → ¬ IsOfFamily name → (r.logger name).level = level) := by
  intro r h answer next
  have hr : ({} : Registry).after (firstCalls start ++ calls) = r := by
    rw [Registry.after_append, after_firstCalls]
  have hs : r.Sound := hr ▸ Registry.Sound.empty.after _
  have hreach (name : Text) :
      Registry.isReached (r.logger name) = true ↔ WasGot h name ∧ IsOfFamily name :=
    (hr ▸ story_after (firstCalls start ++ calls) name : Story name h (r.logger name)).isReached_iff
  have hscan := (hreach scanLogger).2 ⟨wasGot_scanLogger start calls, by decide +kernel⟩
  rcases Registry.call_set_of_isReached hs.root_name hscan choice with
    ⟨level, hl, hanswer, hnext⟩ | ⟨e, hl, hanswer⟩
  · refine ⟨iff_of_true hanswer ⟨level, hl⟩, fun level' hl' => ?_⟩
    obtain rfl : level = level' := Except.ok.inj (hl.symm.trans hl')
    have hfamily : ∀ name, WasGot h name → IsOfFamily name →
        next.logger name = { r.logger name with level } := fun name hg hf =>
      (hnext name).trans (Logger.relevel_of_reached ((hreach name).2 ⟨hg, hf⟩))
    have hothers : ∀ name, ¬ (WasGot h name ∧ IsOfFamily name) →
        next.logger name = r.logger name := fun name hn =>
      (hnext name).trans (Logger.relevel_of_not_reached fun hc => hn ((hreach name).1 hc))
    refine ⟨hfamily, hothers, fun hall name hg hf => ?_, fun hall name hg => ?_⟩
    · rw [← hothers name fun hn => hf hn.2]
      exact hall name hg
    · by_cases hf : IsOfFamily name
      · rw [hfamily name hg hf]
      · rw [hothers name fun hn => hf hn.2]
        exact hall name hg hf
  · refine ⟨iff_of_false ?_ ?_, fun level hl' => ?_⟩
    · intro hn
      cases hanswer.symm.trans hn
    · rintro ⟨level, hl'⟩
      rw [hl] at hl'
      cases hl'
    · rw [hl] at hl'
      cases hl'

/-- By its name, and with the command run as a script: the scanner's logger and one of a longer name are
reset, the command's own is not. -/
theorem level_set_by_name_reaches_scanner :
    let calls : List Call := [.get "joxyish".toList (some "debug".toList), .get [] none]
    let r := (programLogs scriptLogger usual).after calls
    let next := (r.call (.set (.name "ERROR".toList))).2
    (LevelChoice.name "ERROR".toList).level = .ok 40 ∧
      (next.logger scanLogger).level = 40 ∧ (next.logger "joxyish".toList).level = 40 ∧
      next.logger scriptLogger = r.logger scriptLogger ∧ next.logger [] = r.logger [] := by
  intro calls r next
  obtain ⟨-, hlevel⟩ := levels_set_reach_the_family .asScript calls (.name "ERROR".toList)
  have hl : (LevelChoice.name "ERROR".toList).level = .ok 40 := by decide +kernel
  obtain ⟨hfamily, hothers, -⟩ := hlevel 40 hl
  refine ⟨hl, ?_, ?_, hothers _ (by decide +kernel), hothers _ (by decide +kernel)⟩
  · exact congrArg Logger.level (hfamily _ (wasGot_scanLogger .asScript calls) (by decide +kernel))
  · exact congrArg Logger.level (hfamily _ (by decide +kernel) (by decide +kernel))

/-- Levels that are set, for all that have been got: the command's own logger, when it is run as a
script, keeps its level, and so do a logger of another name and the root logger. -/
theorem levels_set_pass_by_others :
    let calls : List Call := [.get "app".toList none, .get "root".toList (some "INFO".toList)]
    let r := (programLogs scriptLogger usual).after calls
    let h := ({} : Registry).history (firstCalls .asScript ++ calls)
    let set := r.call (.set (.number 10))
    set.1 = .ok .done ∧
      (WasGot h scriptLogger ∧ (set.2.logger scriptLogger).level = 30) ∧
      (WasGot h "app".toList ∧ (set.2.logger "app".toList).level = 30) ∧
      (WasGot h "root".toList ∧ (set.2.logger "root".toList).level = 20) := by
  decide +kernel

end ScriptLexer.Log
