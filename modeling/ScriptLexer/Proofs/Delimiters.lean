import ScriptLexer.Proofs.Grammar

/-! # Ends of strings, comments and fractions

The three functions that look for the end of an open construct find exactly the ends that the
grammar speaks of: they return a body if and only if the text starts with a body of that shape and
its end. -/

namespace ScriptLexer

/-! ## Strings -/

theorem splitString_append {body : Text} (h : '\x22' ∉ body) (after : Text) :
    splitString (body ++ '\x22' :: after) = some (body, after) := by
  have hr := Text.ne_of_not_mem h
  have hs : Text.StopsRun (fun c => decide (c ≠ '\x22')) ('\x22' :: after) := by
    simp [Text.stopsRun_cons]
  unfold splitString
  rw [Text.dropWhile_append_of_stopsRun hr hs, Text.takeWhile_append_of_stopsRun hr hs]

theorem not_mem_of_splitString {t body after : Text} (h : splitString t = some (body, after)) :
    '\x22' ∉ body := by
  unfold splitString at h
  split at h
  · cases h
  · cases h
    exact Text.not_mem_takeWhile_ne _ t

theorem splitString_eq_none_iff {t : Text} : splitString t = none ↔ '\x22' ∉ t := by
  constructor
  · intro h
    unfold splitString at h
    split at h
    · next hd =>
      intro hm
      simpa using List.dropWhile_eq_nil_iff.1 hd _ hm
    · cases h
  · intro h
    cases hs : splitString t with
    | none => rfl
    | some r =>
      have ht := splitString_eq hs
      exact absurd (ht ▸ by simp) h

/-! ## Block comments -/

theorem splitComment_cons {c : Char} {rest : Text} (h : ¬ (c = '*' ∧ rest.head? = some '/')) :
    splitComment (c :: rest) = (splitComment rest).map fun (body, after) => (c :: body, after) := by
  rw [splitComment.eq_2]
  rintro tail rfl rfl
  exact h ⟨rfl, rfl⟩

theorem splitComment_append {body : Text} (h : ClosesOnce body) (after : Text) :
    splitComment (body ++ '*' :: '/' :: after) = some (body, after) := by
  induction body with
  | nil => rfl
  | cons c body ih =>
    obtain ⟨hb, hn⟩ := closesOnce_cons.1 h
    have hn' : ¬ (c = '*' ∧ (body ++ '*' :: '/' :: after).head? = some '/') := by
      cases body with
      | nil => simp
      | cons d rest => simpa using hn
    rw [List.cons_append, splitComment_cons hn', ih hb]
    rfl

theorem closesOnce_of_splitComment {t body after : Text}
    (h : splitComment t = some (body, after)) : ClosesOnce body := by
  fun_induction splitComment t generalizing body with
  | case1 r =>
    cases h
    exact closesOnce_nil
  | case2 c rest hne ih =>
    obtain ⟨⟨b, a⟩, hb, he⟩ := Option.map_eq_some_iff.1 h
    cases he
    refine closesOnce_cons.2 ⟨ih hb, ?_⟩
    -- A star with a slash behind it is the first case.
    rintro ⟨rfl, hh⟩
    have ht := splitComment_eq hb
    cases b with
    | nil => simp at hh
    | cons d b =>
      obtain rfl : d = '/' := by simpa using hh
      exact hne _ rfl ht.symm
  | case3 => cases h

theorem splitComment_ne_none (before after : Text) :
    splitComment (before ++ '*' :: '/' :: after) ≠ none := by
  induction before with
  | nil => simp [splitComment]
  | cons c before ih =>
    by_cases hc : c = '*' ∧ (before ++ '*' :: '/' :: after).head? = some '/'
    · obtain ⟨rfl, hh⟩ := hc
      obtain ⟨r, hr⟩ := List.head?_eq_some_iff.1 hh
      simp [hr, splitComment]
    · rw [List.cons_append, splitComment_cons hc]
      simpa using ih

theorem splitComment_eq_none_iff {t : Text} :
    splitComment t = none ↔ ¬ ['*', '/'] <:+: t := by
  constructor
  · rintro h ⟨before, after, rfl⟩
    exact splitComment_ne_none before after (by simpa using h)
  · intro h
    cases hs : splitComment t with
    | none => rfl
    | some r => exact absurd ⟨r.1, r.2, by simpa using splitComment_eq hs⟩ h

/-! ## Fractions -/

theorem splitFraction_append {f after : Text} (h : IsDigits f) (hs : Text.StopsRun isDigit after) :
    splitFraction ('.' :: f ++ after) = some (f, after) := by
  cases f with
  | nil => exact absurd rfl h.1
  | cons d f =>
    obtain ⟨hd, hf⟩ := isDigits_cons.1 h
    simp only [splitFraction, List.cons_append, hd, if_true,
      Text.takeWhile_append_of_stopsRun hf hs, Text.dropWhile_append_of_stopsRun hf hs]

theorem isDigits_of_splitFraction {t f after : Text} (h : splitFraction t = some (f, after)) :
    IsDigits f ∧ Text.StopsRun isDigit after := by
  unfold splitFraction at h
  split at h
  · next d rest =>
    split at h
    · next hd =>
      cases h
      exact ⟨isDigits_cons.2 ⟨hd, fun _ hc => List.mem_takeWhile_imp hc⟩,
        Text.stopsRun_dropWhile _ _⟩
    · cases h
  · cases h

theorem splitFraction_eq_none_iff {t : Text} : splitFraction t = none ↔ ¬ StartsFraction t := by
  constructor
  · rintro h ⟨d, rest, rfl, hd⟩
    simp [splitFraction, hd] at h
  · intro h
    unfold splitFraction
    split
    · next d rest =>
      rw [if_neg fun hd => h ⟨d, rest, rfl, hd⟩]
    · rfl

end ScriptLexer
