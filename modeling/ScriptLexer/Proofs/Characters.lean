import ScriptLexer.Scan.Lead
import Mathlib.Data.List.TakeWhile

/-! # Character classes

Blanks, digits, letters and the marks that start a lexeme of their own are disjoint classes, and
what is in none of them starts nothing. So the class of a character decides its lead, which is all
that later modules use of `Lead.of`. The second half is about runs: where a class of characters
stops, a run of it is exactly what was put there. -/

namespace ScriptLexer

/-- The characters other than blanks, letters and digits that start a lexeme. -/
def marks : Text :=
  ['(', ')', '\x7b', '\x7d', ',', '.', '-', '+', ';', '*', '!', '=', '<', '>', '/', '\x22']

/-- A character that no lexeme, comment or blank starts with. -/
def IsStray (c : Char) : Prop :=
  c ∉ marks ∧ isBlank c = false ∧ isDigit c = false ∧ isLetter c = false

theorem plain_of_mem_marks :
    ∀ c ∈ marks, isBlank c = false ∧ isDigit c = false ∧ isLetter c = false := by
  simp [marks, isBlank, isDigit, isLetter]

theorem plain_of_isBlank {c : Char} (h : isBlank c = true) :
    c ∉ marks ∧ isDigit c = false ∧ isLetter c = false := by
  simp only [isBlank, Bool.or_eq_true, decide_eq_true_eq] at h
  rcases h with ((rfl | rfl) | rfl) | rfl <;> decide

theorem not_isLetter_of_isDigit {c : Char} (h : isDigit c = true) : isLetter c = false := by
  simp only [isDigit, Bool.and_eq_true, decide_eq_true_eq, Char.le_def] at h
  have hne : c ≠ '_' := by rintro rfl; simp at h
  simp only [isLetter, Char.le_def, hne, decide_false, Bool.or_false]
  grind

theorem isWordCharacter_of_isLetter {c : Char} (h : isLetter c = true) :
    isWordCharacter c = true := by
  simp [isWordCharacter, h]

theorem isWordCharacter_of_isDigit {c : Char} (h : isDigit c = true) :
    isWordCharacter c = true := by
  simp [isWordCharacter, h]

theorem not_isStray_of_mem_marks {c : Char} (h : c ∈ marks) : ¬ IsStray c :=
  fun hs => hs.1 h

theorem not_isStray_of_isBlank {c : Char} (h : isBlank c = true) : ¬ IsStray c := by
  rintro ⟨-, hb, -⟩
  rw [h] at hb
  cases hb

theorem not_isStray_of_isWordCharacter {c : Char} (h : isWordCharacter c = true) : ¬ IsStray c := by
  rintro ⟨-, -, hd, hl⟩
  simp [isWordCharacter, hd, hl] at h

/-- A line feed is a blank. -/
theorem IsStray.ne_lineFeed {c : Char} (h : IsStray c) : c ≠ '\n' := by
  rintro rfl
  exact not_isStray_of_isBlank rfl h

namespace Lead

theorem mem_marks_of_ofPunctuation? {c : Char} {s : Symbol}
    (h : Symbol.ofPunctuation? c = some s) : c ∈ marks := by
  unfold Symbol.ofPunctuation? at h
  split at h <;> cases h <;> decide

theorem mem_marks_of_ofEqualSuffixed? {c : Char} {single double : Symbol}
    (h : Symbol.ofEqualSuffixed? c = some (single, double)) : c ∈ marks := by
  unfold Symbol.ofEqualSuffixed? at h
  split at h <;> cases h <;> decide

theorem of_of_not_mem_marks {c : Char} (h : c ∉ marks) :
    Lead.of c = if isBlank c then .blank else if isDigit c then .digit
      else if isLetter c then .letter else .stray := by
  -- Every character that the two symbol tables know is a mark.
  have hp : Symbol.ofPunctuation? c = none := by
    cases hs : Symbol.ofPunctuation? c with
    | none => rfl
    | some s => exact absurd (mem_marks_of_ofPunctuation? hs) h
  have he : Symbol.ofEqualSuffixed? c = none := by
    cases hs : Symbol.ofEqualSuffixed? c with
    | none => rfl
    | some s => exact absurd (mem_marks_of_ofEqualSuffixed? hs) h
  have hs : c ≠ '/' := by rintro rfl; exact h (by decide)
  have hq : c ≠ '\x22' := by rintro rfl; exact h (by decide)
  simp only [Lead.of, hp, he, hs, hq, if_false]

theorem of_of_mem_marks : ∀ c ∈ marks,
    Lead.of c ≠ .blank ∧ Lead.of c ≠ .digit ∧ Lead.of c ≠ .letter ∧ Lead.of c ≠ .stray := by
  simp [marks, Lead.of, Symbol.ofPunctuation?, Symbol.ofEqualSuffixed?, isBlank]

theorem of_eq_blank_iff {c : Char} : Lead.of c = .blank ↔ isBlank c = true := by
  by_cases hm : c ∈ marks
  · simp [(of_of_mem_marks c hm).1, (plain_of_mem_marks c hm).1]
  · rw [of_of_not_mem_marks hm]
    grind

theorem of_eq_digit_iff {c : Char} : Lead.of c = .digit ↔ isDigit c = true := by
  by_cases hm : c ∈ marks
  · simp [(of_of_mem_marks c hm).2.1, (plain_of_mem_marks c hm).2.1]
  · rw [of_of_not_mem_marks hm]
    grind [plain_of_isBlank]

theorem of_eq_letter_iff {c : Char} : Lead.of c = .letter ↔ isLetter c = true := by
  by_cases hm : c ∈ marks
  · simp [(of_of_mem_marks c hm).2.2.1, (plain_of_mem_marks c hm).2.2]
  · rw [of_of_not_mem_marks hm]
    grind [plain_of_isBlank, not_isLetter_of_isDigit]

theorem of_eq_stray_iff {c : Char} : Lead.of c = .stray ↔ IsStray c := by
  by_cases hm : c ∈ marks
  · simp [(of_of_mem_marks c hm).2.2.2, IsStray, hm]
  · rw [of_of_not_mem_marks hm]
    grind [IsStray]

end Lead

/-! ## Runs -/

namespace Text

/-- A text that does not go on with a character of the class `p`. -/
def StopsRun (p : Char → Bool) (after : Text) : Prop :=
  ∀ c ∈ after.head?, p c = false

variable {p : Char → Bool} {run after : Text}

theorem head?_ne_some {t : Text} {c : Char} (h : ∀ rest, t = c :: rest → False) :
    t.head? ≠ some c := by
  intro hh
  obtain ⟨rest, hr⟩ := List.head?_eq_some_iff.1 hh
  exact h rest hr

theorem stopsRun_nil : StopsRun p [] := by
  simp [StopsRun]

theorem stopsRun_cons {c : Char} : StopsRun p (c :: after) ↔ p c = false := by
  simp [StopsRun]

theorem stopsRun_dropWhile (p : Char → Bool) (t : Text) : StopsRun p (t.dropWhile p) := by
  cases h : t.dropWhile p with
  | nil => exact stopsRun_nil
  | cons c r =>
    have hne : t.dropWhile p ≠ [] := by rw [h]; exact List.cons_ne_nil c r
    have hc := List.head_dropWhile_not p hne
    simpa only [h, List.head_cons, stopsRun_cons] using hc

theorem takeWhile_append_of_stopsRun (hr : ∀ c ∈ run, p c = true) (hs : StopsRun p after) :
    (run ++ after).takeWhile p = run := by
  rw [List.takeWhile_append_of_pos hr]
  cases after with
  | nil => simp
  | cons c r => simp [stopsRun_cons.1 hs]

theorem dropWhile_append_of_stopsRun (hr : ∀ c ∈ run, p c = true) (hs : StopsRun p after) :
    (run ++ after).dropWhile p = after := by
  rw [List.dropWhile_append_of_pos hr]
  cases after with
  | nil => rfl
  | cons c r => simp [stopsRun_cons.1 hs]

theorem ne_of_not_mem {x : Char} (h : x ∉ run) : ∀ c ∈ run, decide (c ≠ x) = true := by
  intro c hc
  simpa using fun he : c = x => h (he ▸ hc)

theorem not_mem_takeWhile_ne (x : Char) (t : Text) : x ∉ t.takeWhile (· ≠ x) := by
  intro hm
  simpa using List.mem_takeWhile_imp hm

end Text

end ScriptLexer
