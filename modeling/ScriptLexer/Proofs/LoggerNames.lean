import Mathlib.Data.List.Find
import ScriptLexer.Log.Calls

/-! # Levels by name

The level that counts for a logger is found by going from parent to parent. Where every existing
ancestor of a name is linked, it is found by the names alone: what stands before each point is asked in
turn, nearest first, and a name that belongs to no logger asks for nothing. -/

namespace ScriptLexer.Log

open Registry (isRootName)
open scoped List

/-- The name of the logger that a name stands for. -/
def loggerName (name : Text) : Text :=
  if isRootName name then rootName else name

/-! ## Dotted ancestors -/

/-- What stands before each point of a name that is given backwards. -/
def beforePoints : Text → List Text
  | [] => []
  | c :: before =>
    if c = '.' then before.reverse :: beforePoints before else beforePoints before

/-- The dotted ancestors of a name, nearest first: what stands before each of its points. -/
def dottedAncestors (name : Text) : List Text :=
  beforePoints name.reverse

/-- Two points of a name stand side by side. -/
def HasAdjacentPoints (name : Text) : Prop :=
  ['.', '.'] <:+: name

instance (name : Text) : Decidable (HasAdjacentPoints name) :=
  inferInstanceAs (Decidable (['.', '.'] <:+: name))

theorem suffix_of_mem_beforePoints {t a : Text} (h : a ∈ beforePoints t) :
    '.' :: a.reverse <:+ t := by
  induction t with
  | nil => cases h
  | cons c before ih =>
    simp only [beforePoints] at h
    split at h
    · rename_i hc
      rcases List.mem_cons.mp h with rfl | h
      · simp [hc]
      · exact (ih h).trans (List.suffix_cons c before)
    · exact (ih h).trans (List.suffix_cons c before)

/-- The ancestors beyond an ancestor are its own. -/
theorem beforePoints_beyond {t a : Text} {near far : List Text}
    (h : beforePoints t = near ++ a :: far) : far = beforePoints a.reverse := by
  induction t generalizing near with
  | nil => cases near <;> cases h
  | cons c before ih =>
    simp only [beforePoints] at h
    split at h
    · cases near with
      | nil =>
        obtain ⟨rfl, rfl⟩ := List.cons.inj h
        rw [List.reverse_reverse]
      | cons b near => exact ih (List.cons.inj h).2
    · exact ih h

/-- Unless points stand side by side, an ancestor begins at every point that has something before
it. -/
theorem ancestorsOfReversed_eq {t : Text} (h : ¬ ['.', '.'] <:+: t) :
    ancestorsOfReversed t = (beforePoints t).filter (· ≠ []) := by
  fun_induction ancestorsOfReversed t with
  | case1 => rfl
  | case2 c before ih =>
    have hc : c ≠ '.' := by
      rintro rfl
      exact h (List.prefix_append ['.', '.'] before).isInfix
    rw [ih fun hi => h (hi.trans (List.suffix_append ['.', c] before).isInfix)]
    simp [beforePoints, hc]
  | case3 c before hno ih =>
    rw [ih fun hi => h (hi.trans (List.suffix_cons c before).isInfix)]
    by_cases hc : c = '.'
    · -- a point with something before it is the case before
      cases before with
      | nil => simp [beforePoints]
      | cons d before => exact absurd rfl (hno d before hc)
    · simp [beforePoints, hc]

theorem ancestorNames_eq {name : Text} (h : ¬ HasAdjacentPoints name) :
    ancestorNames name = (dottedAncestors name).filter (· ≠ []) :=
  ancestorsOfReversed_eq fun hi => h (List.reverse_infix.mp hi)

section

variable {name a : Text} {near far : List Text}

theorem prefix_of_mem_dottedAncestors (h : a ∈ dottedAncestors name) : a ++ ['.'] <+: name := by
  have hs := List.reverse_prefix.mpr (suffix_of_mem_beforePoints h)
  simpa using hs

theorem length_of_mem_dottedAncestors (h : a ∈ dottedAncestors name) : a.length < name.length := by
  have hl := (prefix_of_mem_dottedAncestors h).length_le
  rw [List.length_append, List.length_singleton] at hl
  exact hl

theorem dottedAncestors_beyond (h : dottedAncestors name = near ++ a :: far) :
    far = dottedAncestors a :=
  beforePoints_beyond h

theorem dottedAncestors_subset (h : a ∈ dottedAncestors name) :
    dottedAncestors a ⊆ dottedAncestors name := by
  obtain ⟨near, far, hd⟩ := List.append_of_mem h
  rw [hd, ← dottedAncestors_beyond hd]
  exact fun b hb => List.mem_append_right _ (List.mem_cons_of_mem _ hb)

/-- The root logger has no ancestors, whichever of its names is used. -/
theorem dottedAncestors_of_isRootName (h : isRootName name = true) : dottedAncestors name = [] := by
  have h : name = [] ∨ name = rootName := by simpa [isRootName] using h
  rcases h with rfl | rfl <;> rfl

end

namespace Registry

/-! ## Loggers by name -/

/-- The level of the first of some loggers that has one of its own, and in the end the root's. -/
def firstLevel (r : Registry) : List Text → Int
  | [] => r.root.level
  | a :: rest => if (r.logger a).level ≠ unset then (r.logger a).level else r.firstLevel rest

/-- The level that counts for a logger by the names alone: its own, or else that of its nearest dotted
ancestor that has one, or in the end the root's. -/
def levelByNames (r : Registry) (name : Text) : Int :=
  r.firstLevel (name :: dottedAncestors name)

/-- No link between a logger and its ancestors is missing. A logger that is first asked for after its
descendant is not linked to it if its name is a beginning of the root's. -/
def IsLinked (r : Registry) (name : Text) : Prop :=
  ¬ HasAdjacentPoints name ∧
    ∀ b ∈ name :: dottedAncestors name, ∀ a ∈ dottedAncestors b,
      a <+: rootName → ¬ [b, a] <+ r.loggers.map Logger.name

/-- The logger has a level of its own, or is linked to whatever ancestors have one. -/
def HasLevelByNames (r : Registry) (name : Text) : Prop :=
  (r.logger name).level ≠ unset ∨ r.IsLinked name

instance (r : Registry) (name : Text) : Decidable (r.IsLinked name) :=
  inferInstanceAs (Decidable (_ ∧ _))

instance (r : Registry) (name : Text) : Decidable (r.HasLevelByNames name) :=
  inferInstanceAs (Decidable (_ ∨ _))

/-- No logger beside the root logger has its name, or is known by the other name for it. -/
def RootStandsApart (r : Registry) : Prop :=
  ∀ name ∈ r.loggers.map Logger.name, isRootName name = false

section

variable {r : Registry} {name a b : Text} {near far : List Text}

theorem logger_of_isRootName (h : isRootName name = true) : r.logger name = r.root :=
  if_pos h

theorem logger_of_find? (h : isRootName name = false) :
    r.logger name = (r.find? name).getD { name } :=
  if_neg (by simp [h])

theorem find?_of_isRootName (hr : r.RootStandsApart) (h : isRootName name = true) :
    r.find? name = none := by
  refine List.find?_eq_none.mpr fun l hl he => ?_
  rw [← of_decide_eq_true he, hr _ (List.mem_map_of_mem hl)] at h
  cases h

/-- A name that belongs to no logger asks for no level. -/
theorem level_of_find?_eq_none (hn : isRootName name = false) (h : r.find? name = none) :
    (r.logger name).level = unset := by
  rw [logger_of_find? hn, h]
  rfl

/-- What comes before an ancestor does not stand for the root logger, which has no ancestors. -/
theorem isRootName_of_mem_near (h : dottedAncestors name = near ++ a :: far) (hb : b ∈ near) :
    isRootName b = false := by
  obtain ⟨nearer, between, rfl⟩ := List.append_of_mem hb
  have hsplit : dottedAncestors name = nearer ++ b :: (between ++ a :: far) := by simpa using h
  have hd := dottedAncestors_beyond hsplit
  by_contra hroot
  rw [dottedAncestors_of_isRootName (by simpa using hroot)] at hd
  simp at hd

theorem firstLevel_append (h : ∀ b ∈ near, (r.logger b).level = unset) :
    r.firstLevel (near ++ far) = r.firstLevel far := by
  induction near with
  | nil => rfl
  | cons b near ih =>
    rw [List.cons_append, firstLevel, if_neg (not_not_intro (h b List.mem_cons_self))]
    exact ih fun b hb => h b (List.mem_cons_of_mem _ hb)

theorem firstLevel_of_forall
    (h : ∀ b ∈ near, (r.logger b).level = unset ∨ (r.logger b).level = r.root.level) :
    r.firstLevel near = r.root.level := by
  induction near with
  | nil => rfl
  | cons b near ih =>
    have hn := ih fun b hb => h b (List.mem_cons_of_mem _ hb)
    rw [firstLevel, hn]
    rcases h b List.mem_cons_self with hb | hb <;> rw [hb]
    · simp
    · simp

/-! ## Links -/

theorem IsLinked.ancestor (h : r.IsLinked name) (ha : a ∈ dottedAncestors name) :
    r.IsLinked a := by
  obtain ⟨hp, hl⟩ := h
  have hs : a :: dottedAncestors a ⊆ name :: dottedAncestors name := by
    refine List.cons_subset.mpr ⟨List.mem_cons_of_mem _ ha, ?_⟩
    exact fun b hb => List.mem_cons_of_mem _ (dottedAncestors_subset ha hb)
  refine ⟨fun hi => hp (hi.trans ?_), fun b hb => hl b (hs hb)⟩
  exact (List.prefix_append a ['.']).isInfix.trans (prefix_of_mem_dottedAncestors ha).isInfix

/-- The elder of two names in a list comes first. -/
theorem find?_name_of_not_sublist {loggers : List Logger} {child parent : Text}
    (hp : ∃ l ∈ loggers, l.name = parent)
    (h : ¬ [child, parent] <+ loggers.map Logger.name) :
    ∃ first, loggers.find? (fun l => l.name = child || l.name = parent) = some first ∧
      first.name = parent := by
  induction loggers with
  | nil =>
    obtain ⟨l, hl, -⟩ := hp
    cases hl
  | cons l loggers ih =>
    by_cases hl : l.name = parent
    · exact ⟨l, by simp [hl], hl⟩
    · have hp : ∃ l ∈ loggers, l.name = parent := by
        obtain ⟨l', hl', hn⟩ := hp
        rcases List.mem_cons.mp hl' with rfl | hl'
        · exact absurd hn hl
        · exact ⟨l', hl', hn⟩
      have hc : l.name ≠ child := by
        rintro rfl
        obtain ⟨l', hl', hn⟩ := hp
        refine h (List.cons_sublist_cons.mpr (List.singleton_sublist.mpr ?_))
        exact List.mem_map.mpr ⟨l', hl', hn⟩
      obtain ⟨first, hf, hn⟩ := ih hp fun hs => h (hs.trans (List.sublist_cons_self _ _))
      exact ⟨first, by simpa [List.find?_cons, hl, hc] using hf, hn⟩

/-- An existing ancestor is a parent where the links are. -/
theorem joins_of_isLinked (h : r.IsLinked name) (ha : a ∈ dottedAncestors name)
    (hf : (r.find? a).isSome = true) : r.joins name a = true := by
  have hex : ∃ l ∈ r.loggers, l.name = a := by
    simpa [find?, List.find?_isSome] using hf
  unfold joins
  by_cases hp : a <+: rootName
  · obtain ⟨first, hfirst, hn⟩ :=
      find?_name_of_not_sublist hex (h.2 name List.mem_cons_self a ha hp)
    simp [hfirst, hn]
  · split
    · have hb : a.isPrefixOf rootName = false :=
        Bool.eq_false_iff.mpr fun he => hp (List.isPrefixOf_iff_prefix.mp he)
      simp [hb]
    · rename_i hnone
      obtain ⟨l, hl, hn⟩ := hex
      have := List.find?_eq_none.mp hnone l hl
      simp [hn] at this

/-- The parent is the nearest dotted ancestor that there is. -/
theorem parentName?_of_isLinked (hr : r.RootStandsApart) (h : r.IsLinked name) :
    r.parentName? name = (dottedAncestors name).find? fun a => (r.find? a).isSome := by
  rw [parentName?, ancestorNames_eq h.1, List.find?_filter]
  refine List.find?_congr fun a ha => ?_
  cases hf : (r.find? a).isSome with
  | false => simp
  | true =>
    have ha' : a ≠ [] := by
      rintro rfl
      rw [find?_of_isRootName hr rfl] at hf
      cases hf
    simp [ha', joins_of_isLinked h ha hf]

/-! ## The level that counts -/

/-- The ancestors that there are not ask for nothing, so the nearest that there is decides. -/
theorem firstLevel_of_parent {parent : Text}
    (h : (dottedAncestors name).find? (fun a => (r.find? a).isSome) = some parent) :
    r.firstLevel (dottedAncestors name) = r.levelByNames parent := by
  obtain ⟨-, near, far, hd, hnear⟩ := List.find?_eq_some_iff_append.mp h
  rw [hd, firstLevel_append, dottedAncestors_beyond hd, levelByNames]
  intro b hb
  exact level_of_find?_eq_none (isRootName_of_mem_near hd hb) (by simpa using hnear b hb)

theorem firstLevel_of_no_parent
    (h : (dottedAncestors name).find? (fun a => (r.find? a).isSome) = none) :
    r.firstLevel (dottedAncestors name) = r.root.level := by
  refine firstLevel_of_forall fun b hb => ?_
  cases hn : isRootName b with
  | true => exact .inr (by rw [logger_of_isRootName hn])
  | false => exact .inl (level_of_find?_eq_none hn (by simpa using List.find?_eq_none.mp h b hb))

/-- Below the root logger, the level that counts is the first one among the logger and its dotted
ancestors. -/
theorem levelBelowRoot_eq (hr : r.RootStandsApart) (hn : isRootName name = false)
    (h : r.HasLevelByNames name) : r.levelBelowRoot name = r.levelByNames name := by
  induction hk : name.length using Nat.strong_induction_on generalizing name with
  | _ k ih =>
    have hown : ((r.find? name).map Logger.level).getD unset = (r.logger name).level := by
      rw [logger_of_find? hn]
      cases r.find? name <;> rfl
    rw [levelBelowRoot, levelByNames, firstLevel]
    simp only [hown]
    by_cases hl : (r.logger name).level = unset
    · have hlinked : r.IsLinked name := h.resolve_left (not_not_intro hl)
      have hparent := parentName?_of_isLinked hr hlinked
      simp only [hl, ne_eq, not_true_eq_false, if_false]
      split
      · rename_i parent hp
        rw [hparent] at hp
        have hmem := List.mem_of_find?_eq_some hp
        have hnp : isRootName parent = false := by
          by_contra hroot
          have hex := List.find?_some hp
          rw [find?_of_isRootName hr (by simpa using hroot)] at hex
          cases hex
        rw [firstLevel_of_parent hp]
        exact ih parent.length (hk ▸ length_of_mem_dottedAncestors hmem) hnp
          (.inr (hlinked.ancestor hmem)) rfl
      · rename_i hp
        rw [firstLevel_of_no_parent (hparent.symm.trans hp)]
    · simp [hl]

/-- The level that counts for a logger is found by names. -/
theorem effectiveLevel_eq (hr : r.RootStandsApart) (h : r.HasLevelByNames name) :
    r.effectiveLevel name = r.levelByNames name := by
  unfold effectiveLevel
  split
  · rename_i hn
    rw [levelByNames, dottedAncestors_of_isRootName hn]
    refine (firstLevel_of_forall fun b hb => .inr ?_).symm
    rw [List.mem_singleton.mp hb, logger_of_isRootName hn]
  · rename_i hn
    exact levelBelowRoot_eq hr (by simpa using hn) h

end

end Registry

end ScriptLexer.Log
