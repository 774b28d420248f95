import ScriptLexer.Proofs.Lexemes

/-! # Lexemes with nothing between them

Lexemes written directly one after the other are read back one by one unless two or three of them
run together: words and numbers that would make one longer lexeme, operators that an equals sign
would extend, a slash that would open a comment, and digits, a point and a number. Where that
happens, at whatever place, something else is read. -/

namespace ScriptLexer

/-- Two lexemes of which the first would not end where the second starts. -/
def Clash (w v : Text) : Prop :=
  (IsWord w ∧ (IsWord v ∨ IsNumber v)) ∨
  (IsNumber w ∧ IsNumber v) ∨
  (w ∈ [['!'], ['='], ['<'], ['>']] ∧ v ∈ [['='], ['=', '=']]) ∨
  (w = ['/'] ∧ v ∈ [['/'], ['*']])

/-- Among consecutive lexemes two clash, or a point stands between digits and a number. -/
def HasClash (ws : List Text) : Prop :=
  (∃ before w v after, ws = before ++ w :: v :: after ∧ Clash w v) ∨
  ∃ before w v after, ws = before ++ w :: ['.'] :: v :: after ∧ IsDigits w ∧ IsNumber v

/-- Scanning gives no error and, before the end of the text, exactly the tokens with these
lexemes. -/
def ScansTo (t : Text) (ws : List Text) : Prop :=
  (scan t).errors = [] ∧ ∃ ts,
    (scan t).tokens = ts ++ [Token.endOfText (1 + Text.lineFeeds t : Nat)] ∧
      ts.map Token.lexeme = ws

/-! ## Lexemes by their first character -/

theorem IsNumber.exists_cons {w : Text} (h : IsNumber w) :
    ∃ d rest, w = d :: rest ∧ isDigit d = true := by
  rcases h with h | ⟨whole, fraction, hw, -, rfl⟩
  · exact h.exists_cons
  · obtain ⟨d, rest, rfl, h⟩ := hw.exists_cons
    exact ⟨d, rest ++ '.' :: fraction, rfl, h⟩

theorem IsWord.exists_cons {w : Text} (h : IsWord w) :
    ∃ c rest, w = c :: rest ∧ isLetter c = true := by
  cases w with
  | nil => exact h.elim
  | cons c rest => exact ⟨c, rest, rfl, h.1⟩

theorem Symbol.mem_marks_of_spelling {s : Symbol} {c : Char} {rest : Text}
    (h : s.spelling = c :: rest) : c ∈ marks :=
  s.mem_marks c (h ▸ List.mem_cons_self)

namespace IsLexeme

variable {c : Char} {rest : Text}

theorem ne_nil {w : Text} (h : IsLexeme w) : w ≠ [] := by
  obtain ⟨p, hp, -, rfl⟩ := h.exists_piece
  exact hp.text_ne_nil

/-- The first character of a lexeme tells its kind. -/
theorem cons_cases (h : IsLexeme (c :: rest)) :
    (∃ s : Symbol, s.spelling = c :: rest) ∨ (isLetter c = true ∧ IsWord (c :: rest)) ∨
      (isDigit c = true ∧ IsNumber (c :: rest)) ∨ c = '\x22' := by
  generalize hw : c :: rest = w at h
  cases h with
  | symbol s => exact .inl ⟨s, rfl⟩
  | word h =>
    obtain ⟨d, r, he, hd⟩ := h.exists_cons
    obtain rfl : c = d := by rw [he] at hw; exact (List.cons.inj hw).1
    exact .inr (.inl ⟨hd, h⟩)
  | number h =>
    obtain ⟨d, r, he, hd⟩ := h.exists_cons
    obtain rfl : c = d := by rw [he] at hw; exact (List.cons.inj hw).1
    exact .inr (.inr (.inl ⟨hd, h⟩))
  | string => exact .inr (.inr (.inr (List.cons.inj hw).1))

theorem isWord (h : IsLexeme (c :: rest)) (hc : isLetter c = true) : IsWord (c :: rest) := by
  rcases h.cons_cases with ⟨s, hs⟩ | ⟨-, hw⟩ | ⟨hd, -⟩ | rfl
  · simp [(plain_of_mem_marks c (Symbol.mem_marks_of_spelling hs)).2.2] at hc
  · exact hw
  · simp [not_isLetter_of_isDigit hd] at hc
  · cases hc

theorem isNumber (h : IsLexeme (c :: rest)) (hc : isDigit c = true) : IsNumber (c :: rest) := by
  rcases h.cons_cases with ⟨s, hs⟩ | ⟨hl, -⟩ | ⟨-, hn⟩ | rfl
  · simp [(plain_of_mem_marks c (Symbol.mem_marks_of_spelling hs)).2.1] at hc
  · simp [not_isLetter_of_isDigit hc] at hl
  · exact hn
  · cases hc

theorem exists_symbol (h : IsLexeme (c :: rest)) (hm : c ∈ marks) (hq : c ≠ '\x22') :
    ∃ s : Symbol, s.spelling = c :: rest := by
  obtain ⟨-, hd, hl⟩ := plain_of_mem_marks c hm
  rcases h.cons_cases with hs | ⟨hc, -⟩ | ⟨hc, -⟩ | rfl
  · exact hs
  · simp [hl] at hc
  · simp [hd] at hc
  · exact absurd rfl hq

end IsLexeme

/-- A text of lexemes starts with its first lexeme. -/
theorem exists_first_lexeme {ws : List Text} {c : Char} {rest : Text}
    (hws : ∀ w ∈ ws, IsLexeme w) (h : ws.flatten = c :: rest) :
    ∃ r vs, ws = (c :: r) :: vs ∧ IsLexeme (c :: r) ∧ rest = r ++ vs.flatten := by
  cases ws with
  | nil => cases h
  | cons w vs =>
    have hw := hws w List.mem_cons_self
    obtain ⟨d, r, rfl⟩ := List.exists_cons_of_ne_nil hw.ne_nil
    obtain ⟨rfl, rfl⟩ := List.cons.inj h
    exact ⟨r, vs, rfl, hw, rfl⟩

/-! ## No clash, no surprise -/

theorem hasClash_cons {w : Text} {ws : List Text} (h : HasClash ws) : HasClash (w :: ws) := by
  rcases h with ⟨before, u, v, after, rfl, h⟩ | ⟨before, u, v, after, rfl, h⟩
  · exact .inl ⟨w :: before, u, v, after, rfl, h⟩
  · exact .inr ⟨w :: before, u, v, after, rfl, h⟩

theorem hasClash_of_clash {w v : Text} {ws : List Text} (h : Clash w v) :
    HasClash (w :: v :: ws) :=
  .inl ⟨[], w, v, ws, rfl, h⟩

variable {ws : List Text}

theorem stopsRun_isDigit {w : Text} (hws : ∀ v ∈ ws, IsLexeme v) (hw : IsNumber w)
    (h : ¬ HasClash (w :: ws)) : Text.StopsRun isDigit ws.flatten := by
  intro c hc
  obtain ⟨rest, hr⟩ := List.head?_eq_some_iff.1 hc
  obtain ⟨r, vs, rfl, hv, -⟩ := exists_first_lexeme hws hr
  by_contra hd
  exact h (hasClash_of_clash (.inr (.inl ⟨hw, hv.isNumber (by simpa using hd)⟩)))

/-- A point with a digit after it is a point and a number. -/
theorem not_startsFraction {w : Text} (hws : ∀ v ∈ ws, IsLexeme v) (hw : IsDigits w)
    (h : ¬ HasClash (w :: ws)) : ¬ StartsFraction ws.flatten := by
  rintro ⟨d, rest, hf, hd⟩
  obtain ⟨r, vs, rfl, hv, hr⟩ := exists_first_lexeme hws hf
  -- The point is a lexeme of its own, so the digit behind it starts the next one.
  obtain ⟨s, hs⟩ := hv.exists_symbol (by decide) (by decide)
  obtain rfl : r = [] := by
    cases s <;> cases hs
    rfl
  have hvs : ∀ u ∈ vs, IsLexeme u := fun u hu => hws u (List.mem_cons_of_mem _ hu)
  obtain ⟨r', us, rfl, hu, -⟩ := exists_first_lexeme hvs hr.symm
  exact h (.inr ⟨[], w, d :: r', us, rfl, hw, hu.isNumber hd⟩)

theorem stopsRun_isWordCharacter {w : Text} (hws : ∀ v ∈ ws, IsLexeme v) (hw : IsWord w)
    (h : ¬ HasClash (w :: ws)) : Text.StopsRun isWordCharacter ws.flatten := by
  intro c hc
  obtain ⟨rest, hr⟩ := List.head?_eq_some_iff.1 hc
  obtain ⟨r, vs, rfl, hv, -⟩ := exists_first_lexeme hws hr
  by_contra hn
  have hwc : isWordCharacter c = true := by simpa using hn
  rw [isWordCharacter, Bool.or_eq_true] at hwc
  rcases hwc with hl | hd
  · exact h (hasClash_of_clash (.inl ⟨hw, .inl (hv.isWord hl)⟩))
  · exact h (hasClash_of_clash (.inl ⟨hw, .inr (hv.isNumber hd)⟩))

theorem head?_ne_of_not_hasClash {w : Text} {c : Char} (hws : ∀ v ∈ ws, IsLexeme v)
    (hm : c ∈ marks) (hq : c ≠ '\x22')
    (hc : ∀ s : Symbol, ∀ rest, s.spelling = c :: rest → Clash w s.spelling)
    (h : ¬ HasClash (w :: ws)) : ws.flatten.head? ≠ some c := by
  intro hh
  obtain ⟨rest, hr⟩ := List.head?_eq_some_iff.1 hh
  obtain ⟨r, vs, rfl, hv, -⟩ := exists_first_lexeme hws hr
  obtain ⟨s, hs⟩ := hv.exists_symbol hm hq
  exact h (hasClash_of_clash (hs ▸ hc s r hs))

/-- What comes after a lexeme that clashes with nothing lets it end. -/
theorem endsBefore_of_not_hasClash {p : Piece} (hp : p.WellFormed) (hl : p.isLexeme = true)
    (hws : ∀ v ∈ ws, IsLexeme v) (h : ¬ HasClash (p.text :: ws)) : p.EndsBefore ws.flatten := by
  cases p with
  | symbol s =>
    have heq : s.spelling ∈ [['!'], ['='], ['<'], ['>']] → ws.flatten.head? ≠ some '=' := by
      intro hs
      refine head?_ne_of_not_hasClash hws (by decide) (by decide) ?_ h
      intro v rest hv
      refine .inr (.inr (.inl ⟨hs, ?_⟩))
      cases v <;> cases hv <;> decide
    have hslash : s = .slash → ∀ c ∈ ['/', '*'], ws.flatten.head? ≠ some c := by
      rintro rfl c hc
      have hm : ∀ c ∈ ['/', '*'], c ∈ marks ∧ c ≠ '\x22' := by simp [marks]
      refine head?_ne_of_not_hasClash hws (hm c hc).1 (hm c hc).2 ?_ h
      intro v rest hv
      refine .inr (.inr (.inr ⟨rfl, ?_⟩))
      rcases List.mem_pair.1 hc with rfl | rfl <;> cases v <;> cases hv <;> decide
    cases s
    case bang | equal | greater | less => exact heq (by decide)
    case slash => exact ⟨hslash rfl '/' (by decide), hslash rfl '*' (by decide)⟩
    all_goals trivial
  | string body => trivial
  | word w => exact stopsRun_isWordCharacter hws hp h
  | number whole fraction =>
    have hn : IsNumber (Piece.number whole fraction).text := isNumber_iff.2 ⟨whole, fraction, hp, rfl⟩
    cases fraction with
    | none => exact ⟨stopsRun_isDigit hws hn h, not_startsFraction hws hp.1 h⟩
    | some f => exact stopsRun_isDigit hws hn h
  | _ => cases hl

/-- Lexemes that do not clash are the pieces of the text they make. -/
theorem exists_cut_of_not_hasClash (hws : ∀ w ∈ ws, IsLexeme w) (h : ¬ HasClash ws) :
    ∃ ps, IsCut ws.flatten ps ∧ GivesLexemes ws ps := by
  induction ws with
  | nil => exact ⟨[], .nil, givesLexemes_nil⟩
  | cons w ws ih =>
    have hws' : ∀ v ∈ ws, IsLexeme v := fun v hv => hws v (List.mem_cons_of_mem w hv)
    obtain ⟨ps, hcut, hg⟩ := ih hws' fun hc => h (hasClash_cons hc)
    obtain ⟨p, hp, hl, rfl⟩ := (hws w List.mem_cons_self).exists_piece
    have hf : p.Fits ws.flatten := ⟨hp, endsBefore_of_not_hasClash hp hl hws' h⟩
    exact ⟨p :: ps, .cons hf hcut, (givesLexemes_singleton hl).append hg⟩

/-! ## A clash is always noticed -/

theorem length_flatMap_filter_le (f : Piece → Bool) (ps : List Piece) :
    ((ps.filter f).flatMap Piece.text).length ≤ (ps.flatMap Piece.text).length := by
  induction ps with
  | nil => exact Nat.le_refl _
  | cons p ps ih =>
    rw [List.filter_cons]
    split
    · simpa using ih
    · rw [List.flatMap_cons, List.length_append]
      omega

/-- If the lexemes make up the whole text, there is nothing else in its cut. -/
theorem IsCut.filter_eq_self {t : Text} {ps : List Piece} (h : IsCut t ps)
    (hl : (ps.filter Piece.isLexeme).flatMap Piece.text = t) : ps.filter Piece.isLexeme = ps := by
  have hlen := congrArg List.length (hl.trans h.flatMap_text.symm)
  clear hl
  induction h with
  | nil => rfl
  | @cons p after ps hf _ ih =>
    have hp := List.length_pos_iff.2 hf.wellFormed.text_ne_nil
    have hle := length_flatMap_filter_le Piece.isLexeme ps
    rw [List.filter_cons] at hlen ⊢
    split at hlen
    · next hc =>
      rw [if_pos hc, ih (by simpa using hlen)]
    · rw [List.flatMap_cons, List.length_append] at hlen
      omega

/-- If scanning gives back the lexemes that make up a text, they are its pieces. -/
theorem exists_cut_of_scansTo {t : Text} (h : ScansTo t ws) (ht : ws.flatten = t) :
    ∃ ps, IsCut t ps ∧ ps.map Piece.text = ws ∧ ∀ p ∈ ps, p.isLexeme = true := by
  obtain ⟨-, ts, hts, hl⟩ := h
  have hc := isCut_cut t
  rw [tokens_scan hc] at hts
  obtain rfl := List.append_cancel_right hts
  rw [map_lexeme_of_readAlone (readAlone_readTokens hc [])] at hl
  -- The lexemes fill the text, which leaves nothing for blanks, comments and faults.
  have hf := hc.filter_eq_self (by rw [List.flatMap_def, hl, ht])
  rw [hf] at hl
  exact ⟨cut t, hc, hl, List.filter_eq_self.1 hf⟩

section

variable {p : Piece} {after : Text} (hf : p.Fits after) (hl : p.isLexeme = true)
include hf hl

theorem symbol_endsBefore {s : Symbol} (h : p.text = s.spelling) : s.EndsBefore after := by
  obtain rfl := p.eq_of_text_eq (q := .symbol s) hf.wellFormed hl trivial rfl h
  exact hf.endsBefore

theorem stopsRun_of_isWord (h : IsWord p.text) : Text.StopsRun isWordCharacter after := by
  generalize hw : p.text = w at h
  obtain rfl := p.eq_of_text_eq (q := .word w) hf.wellFormed hl h rfl hw
  exact hf.endsBefore

theorem stopsRun_of_isDigits (h : IsDigits p.text) :
    Text.StopsRun isDigit after ∧ ¬ StartsFraction after := by
  generalize hw : p.text = w at h
  obtain rfl := p.eq_of_text_eq (q := .number w none) hf.wellFormed hl ⟨h, by simp⟩ rfl hw
  exact hf.endsBefore

theorem stopsRun_of_isNumber (h : IsNumber p.text) : Text.StopsRun isDigit after := by
  rcases h with h | ⟨whole, f, hw, hd, ht⟩
  · exact (stopsRun_of_isDigits hf hl h).1
  · obtain rfl := p.eq_of_text_eq (q := .number whole (some f)) hf.wellFormed hl
      ⟨hw, by simpa using hd⟩ rfl ht
    exact hf.endsBefore

end

/-- No piece of a cut clashes with the text behind it. -/
theorem not_clash_of_fits {p : Piece} {v after : Text} (hf : p.Fits (v ++ after))
    (hl : p.isLexeme = true) : ¬ Clash p.text v := by
  rintro (⟨hw, hv⟩ | ⟨hn, hv⟩ | ⟨hs, hv⟩ | ⟨hs, hv⟩)
  · have hr := stopsRun_of_isWord hf hl hw
    rcases hv with hv | hv
    · obtain ⟨c, rest, rfl, hc⟩ := hv.exists_cons
      rw [List.cons_append, Text.stopsRun_cons, isWordCharacter_of_isLetter hc] at hr
      cases hr
    · obtain ⟨c, rest, rfl, hc⟩ := hv.exists_cons
      rw [List.cons_append, Text.stopsRun_cons, isWordCharacter_of_isDigit hc] at hr
      cases hr
  · have hr := stopsRun_of_isNumber hf hl hn
    obtain ⟨c, rest, rfl, hc⟩ := hv.exists_cons
    rw [List.cons_append, Text.stopsRun_cons, hc] at hr
    cases hr
  · have he : (v ++ after).head? ≠ some '=' := by
      simp only [List.mem_cons, List.not_mem_nil, or_false] at hs
      rcases hs with hs | hs | hs | hs
      · exact symbol_endsBefore (s := .bang) hf hl hs
      · exact symbol_endsBefore (s := .equal) hf hl hs
      · exact symbol_endsBefore (s := .less) hf hl hs
      · exact symbol_endsBefore (s := .greater) hf hl hs
    rcases List.mem_pair.1 hv with rfl | rfl <;> exact he rfl
  · have he := symbol_endsBefore (s := .slash) hf hl hs
    rcases List.mem_pair.1 hv with rfl | rfl
    · exact he.1 rfl
    · exact he.2 rfl

/-- A text in the row of the texts of a cut is that of a piece which fits all that follow. -/
theorem exists_fits_of_map_eq {t w : Text} {ps : List Piece} {before after : List Text}
    (h : IsCut t ps) (he : ps.map Piece.text = before ++ w :: after) :
    ∃ p ∈ ps, p.text = w ∧ p.Fits after.flatten := by
  obtain ⟨qs, rs, rfl, -, hr⟩ := List.map_eq_append_iff.1 he
  obtain ⟨p, rs, rfl, hp, hrs⟩ := List.map_eq_cons_iff.1 hr
  have hf := h.fits_of_append
  rw [List.flatMap_def, hrs] at hf
  exact ⟨p, by simp, hp, hf⟩

/-- The lexeme pieces of a text do not clash. -/
theorem not_hasClash_of_isCut {t : Text} {ps : List Piece} (h : IsCut t ps)
    (hl : ∀ p ∈ ps, p.isLexeme = true) : ¬ HasClash (ps.map Piece.text) := by
  rintro (⟨before, w, v, after, he, hc⟩ | ⟨before, w, v, after, he, hw, hv⟩)
  · obtain ⟨p, hp, rfl, hf⟩ := exists_fits_of_map_eq h he
    exact not_clash_of_fits hf (hl p hp) hc
  · obtain ⟨p, hp, rfl, hf⟩ := exists_fits_of_map_eq h he
    obtain ⟨d, rest, rfl, hd⟩ := hv.exists_cons
    exact (stopsRun_of_isDigits hf (hl p hp) hw).2 ⟨d, rest ++ after.flatten, rfl, hd⟩

/-- Lexemes with nothing between them are read back if and only if none of them clash. -/
theorem scansTo_flatten_iff (hws : ∀ w ∈ ws, IsLexeme w) :
    ScansTo ws.flatten ws ↔ ¬ HasClash ws := by
  constructor
  · intro h
    obtain ⟨ps, hcut, hm, hl⟩ := exists_cut_of_scansTo h rfl
    rw [← hm]
    exact not_hasClash_of_isCut hcut hl
  · intro h
    obtain ⟨ps, hcut, hg⟩ := exists_cut_of_not_hasClash hws h
    obtain ⟨he, ts, ht, ha⟩ := hg.scan hcut
    exact ⟨he, ts, ht, map_lexeme_of_readAlone ha⟩

/-- One, a point, and two and a half do not scan to themselves: the text is `1.2.5`. -/
theorem not_scansTo_one_point_number :
    (∀ w ∈ [['1'], ['.'], ['2', '.', '5']], IsLexeme w) ∧
      ¬ ScansTo ['1', '.', '2', '.', '5'] [['1'], ['.'], ['2', '.', '5']] := by
  have hd : ∀ c, isDigit c = true → IsDigits [c] := fun c hc => ⟨by simp, by simpa using hc⟩
  have hn : IsNumber ['2', '.', '5'] := .inr ⟨['2'], ['5'], hd '2' rfl, hd '5' rfl, rfl⟩
  have hws : ∀ w ∈ [['1'], ['.'], ['2', '.', '5']], IsLexeme w := by
    simpa using ⟨.number (.inl (hd '1' rfl)), .symbol .dot, .number hn⟩
  refine ⟨hws, fun h => (scansTo_flatten_iff hws).1 h ?_⟩
  exact .inr ⟨[], ['1'], ['2', '.', '5'], [], rfl, hd '1' rfl, hn⟩

end ScriptLexer
