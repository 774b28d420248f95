import ScriptLexer.Proofs.LineEnds
import ScriptLexer.Proofs.PrintedRuns

/-! # Scanning the lines of a text one by one

A text falls into lines at its line feeds and nowhere else. If every line by itself, without the
carriage returns at its end, leaves nothing open, then the cut of the text is made of the cuts of its
lines: the carriage returns are blanks, or belong to the line comment before them, and a line feed
ends every piece. So the lines have all the tokens of the text between them, and all its errors, only
that each line has been counted from one. -/

namespace ScriptLexer

/-! ## Lines -/

/-- These are the lines of the text: each but the last has a line feed behind it in the text, and the
last may lack it unless it is empty. -/
structure IsLines (t : Text) (lines : List Text) : Prop where
  unbroken : ∀ l ∈ lines, '\n' ∉ l
  joined : t = lines.flatMap Text.asLine ∨
    ∃ before last, lines = before ++ [last] ∧ last ≠ [] ∧ t = before.flatMap Text.asLine ++ last

theorem inputLines_of_not_mem {t : Text} (h : '\n' ∉ t) (hne : t ≠ []) : inputLines t = [t] := by
  induction t with
  | nil => exact absurd rfl hne
  | cons c t ih =>
    obtain ⟨hc, ht⟩ := List.ne_and_not_mem_of_not_mem_cons h
    have hn : c ≠ '\n' := Ne.symm hc
    cases t with
    | nil => rw [inputLines, inputLines]; exact hn
    | cons d t => rw [inputLines, ih ht (List.cons_ne_nil d t)]; exact hn

/-- What holds of texts without a line feed, and of a text with one more line in front of it if it
holds of the text, holds of every text. -/
theorem lines_induction {P : Text → Prop} (nil : P []) (last : ∀ l, l ≠ [] → '\n' ∉ l → P l)
    (line : ∀ l rest, '\n' ∉ l → P rest → P (Text.asLine l ++ rest)) (t : Text) : P t := by
  induction hn : t.length using Nat.strong_induction_on generalizing t with
  | _ n ih =>
    by_cases hm : '\n' ∈ t
    · obtain ⟨l, rest, rfl, hl⟩ := List.eq_append_cons_of_mem hm
      have hlt : rest.length < n := by
        rw [← hn, List.length_append, List.length_cons]
        omega
      have hr := line l rest hl (ih _ hlt rest rfl)
      rwa [Text.asLine, List.append_assoc] at hr
    · by_cases he : t = []
      · rwa [he]
      · exact last t he hm

theorem isLines_inputLines (t : Text) : IsLines t (inputLines t) := by
  induction t using lines_induction with
  | nil => exact ⟨by simp [inputLines], .inl rfl⟩
  | last l hne hl =>
    rw [inputLines_of_not_mem hl hne]
    exact ⟨by simpa using hl, .inr ⟨[], l, rfl, hne, rfl⟩⟩
  | line l rest hl ih =>
    rw [inputLines_asLine_append hl]
    refine ⟨List.forall_mem_cons.2 ⟨hl, ih.unbroken⟩, ?_⟩
    rcases ih.joined with he | ⟨before, last, hb, hne, he⟩
    · refine .inl ?_
      rw [List.flatMap_cons, ← he]
    · refine .inr ⟨l :: before, last, by rw [hb]; rfl, hne, ?_⟩
      rw [List.flatMap_cons, List.append_assoc, ← he]

/-- What is cut off a line are carriage returns. -/
theorem exists_returns {line : Text} (h : '\n' ∉ line) :
    ∃ returns, line = trimmedLine line ++ returns ∧ ∀ c ∈ returns, c = '\r' := by
  refine ⟨(line.reverse.takeWhile fun c => c = '\r' || c = '\n').reverse, ?_, fun c hc => ?_⟩
  · rw [trimmedLine, ← List.reverse_append, List.takeWhile_append_dropWhile, List.reverse_reverse]
  · have ht := List.mem_reverse.1 hc
    have hm : c ∈ line := List.mem_reverse.1 ((List.takeWhile_prefix _).subset ht)
    have hr : c = '\r' ∨ c = '\n' := by simpa using List.mem_takeWhile_imp ht
    exact hr.resolve_right fun hn => h (hn ▸ hm)

theorem not_mem_trimmedLine {line : Text} (h : '\n' ∉ line) : '\n' ∉ trimmedLine line := by
  obtain ⟨returns, hr, -⟩ := exists_returns h
  intro hm
  exact h (hr ▸ List.mem_append_left returns hm)

/-! ## Carriage returns -/

/-- Two cuts that are read alike wherever they stand. -/
def ReadAlike (ps qs : List Piece) : Prop :=
  ∀ before, readTokens before ps = readTokens before qs ∧
    readErrors before ps = readErrors before qs

theorem ReadAlike.cons {ps qs : List Piece} (p : Piece) (h : ReadAlike ps qs) :
    ReadAlike (p :: ps) (p :: qs) := by
  intro before
  obtain ⟨ht, he⟩ := h (before ++ p.text)
  rw [readTokens_cons, readTokens_cons, readErrors_cons, readErrors_cons, ht, he]
  exact ⟨rfl, rfl⟩

/-- Pieces without a token or an error are read like none. -/
theorem readAlike_nil {ps : List Piece} (h : ∀ p ∈ ps, p.isLexeme = false ∧ p.isFaulty = false) :
    ReadAlike ps [] :=
  fun _ => ⟨readTokens_eq_nil fun p hp => (h p hp).1, readErrors_eq_nil fun p hp => (h p hp).2⟩

/-- Carriage returns at the end of a text with nothing open are read like nothing. -/
theorem IsCut.append_returns {t returns : Text} {ps : List Piece} (h : IsCut t ps)
    (hp : ∀ p ∈ ps, p.unclosed? = none) (hr : ∀ c ∈ returns, c = '\r') :
    ∃ qs, IsCut (t ++ returns) qs ∧ (∀ q ∈ qs, q.unclosed? = none) ∧ ReadAlike qs ps := by
  induction h with
  | nil =>
    have hb : ∀ c ∈ returns, isBlank c = true := fun c hc => by
      rw [hr c hc]
      rfl
    refine ⟨returns.map .blank, by simpa using IsCut.nil.blanks_append hb, ?_, readAlike_nil ?_⟩
    · simp [Piece.unclosed?]
    · simp [Piece.isLexeme, Piece.isFaulty]
  | @cons p after ps hf hps ih =>
    obtain ⟨hc, hcs⟩ := List.forall_mem_cons.1 hp
    by_cases hl : ∃ body, p = .lineComment body ∧ after = []
    · -- The carriage returns belong to the comment.
      obtain ⟨body, rfl, rfl⟩ := hl
      obtain rfl : ps = [] := by rw [hps.eq_cut, cut_nil]
      have hn : '\n' ∉ body ++ returns := by
        intro hm
        rcases List.mem_append.1 hm with hm | hm
        · exact hf.wellFormed hm
        · cases hr _ hm
      have hfit : (Piece.lineComment (body ++ returns)).Fits [] := ⟨hn, by simp [Piece.EndsBefore]⟩
      refine ⟨[.lineComment (body ++ returns)], ?_, by simp [Piece.unclosed?], fun before => ?_⟩
      · simpa [Piece.text] using IsCut.cons hfit .nil
      · exact ⟨rfl, rfl⟩
    · obtain ⟨qs, hq, hqs, ha⟩ := ih hcs
      have he : p.EndsBefore (after ++ returns) := by
        cases returns with
        | nil =>
          rw [List.append_nil]
          exact hf.endsBefore
        | cons b returns =>
          obtain rfl : b = '\r' := hr b List.mem_cons_self
          exact hf.endsBefore.append_blank hc rfl fun body hb hn => absurd ⟨body, hb, hn⟩ hl
      refine ⟨p :: qs, ?_, List.forall_mem_cons.2 ⟨hc, hqs⟩, ha.cons p⟩
      rw [List.append_assoc]
      exact .cons ⟨hf.wellFormed, he⟩ hq

/-! ## Lines read by themselves -/

/-- Scanning the text reports nothing that is not closed. -/
def NothingOpen (t : Text) : Prop :=
  ∀ e ∈ (scan t).errors,
    e.fault? ≠ some .unterminatedString ∧ e.fault? ≠ some .unterminatedComment

instance (t : Text) : Decidable (NothingOpen t) :=
  inferInstanceAs (Decidable (∀ e ∈ (scan t).errors, _))

/-- An error moved to a line. -/
def LexError.onLine (line : Nat) (e : LexError) : LexError :=
  { e with line }

theorem map_content_readTokens (before : Text) (ps : List Piece) :
    (readTokens before ps).map Token.content = (readTokens [] ps).map Token.content := by
  have hr := readTokens_append before [] ps
  rw [List.append_nil] at hr
  rw [hr, List.map_map]
  rfl

/-- In a text without line feeds every error is on the first line. -/
theorem line_of_mem_errors {t : Text} (h : '\n' ∉ t) {e : LexError} (he : e ∈ (scan t).errors) :
    e.line = 1 := by
  have hc := isCut_cut t
  rw [errors_scan hc] at he
  obtain ⟨a, ha, hp⟩ := List.mem_filterMap.1 he
  obtain ⟨after, -, ht⟩ := fits_of_mem_placed hc ha
  have hz : Text.lineFeeds (a.before ++ a.piece.text) = 0 := by
    refine Text.lineFeeds_eq_zero fun hm => h ?_
    rw [← List.nil_append t, ht]
    exact List.mem_append_left after hm
  rw [Piece.line_of_error? hp, Place.endLine, hz]
  rfl

/-- The errors of a text without line feeds, wherever it stands. -/
theorem readErrors_cut {t : Text} (h : '\n' ∉ t) (before : Text) :
    readErrors before (cut t) =
      (scan t).errors.map (LexError.onLine (1 + Text.lineFeeds before)) := by
  have hr := readErrors_append before [] (cut t)
  rw [List.append_nil] at hr
  rw [hr, ← errors_scan (isCut_cut t)]
  refine List.map_congr_left fun e he => ?_
  rw [LexError.moved, LexError.onLine, line_of_mem_errors h he]
  simp

/-- The cut gives what the texts have between them, the first of them on `line` and each of the others
on the line after. -/
structure GivesLines (line : Nat) (ts : List Text) (before : Text) (ps : List Piece) : Prop where
  tokens : (readTokens before ps).map Token.content =
    ts.flatMap fun t => (readTokens [] (cut t)).map Token.content
  errors : readErrors before ps =
    (ts.zipIdx line).flatMap fun a => (scan a.1).errors.map (LexError.onLine a.2)

/-- A single line is read like what is left of it without its carriage returns. -/
theorem exists_cut_of_line {l : Text} (hl : '\n' ∉ l) (h : NothingOpen (trimmedLine l)) :
    ∃ ps, IsCut l ps ∧ (∀ p ∈ ps, p.unclosed? = none) ∧
      ∀ before, GivesLines (1 + Text.lineFeeds before) [trimmedLine l] before ps := by
  have hc := isCut_cut (trimmedLine l)
  obtain ⟨returns, hr, hrs⟩ := exists_returns hl
  obtain ⟨ps, hps, hp, ha⟩ := hc.append_returns (unclosed?_eq_none hc h) hrs
  rw [← hr] at hps
  refine ⟨ps, hps, hp, fun before => ⟨?_, ?_⟩⟩
  · rw [(ha before).1, map_content_readTokens, List.flatMap_cons, List.flatMap_nil, List.append_nil]
  · rw [(ha before).2, readErrors_cut (not_mem_trimmedLine hl)]
    simp

/-- If no line leaves anything open, the text is read line by line. -/
theorem exists_cut_of_lines {t : Text} (h : ∀ l ∈ inputLines t, NothingOpen (trimmedLine l)) :
    ∃ ps, IsCut t ps ∧ ∀ before,
      GivesLines (1 + Text.lineFeeds before) ((inputLines t).map trimmedLine) before ps := by
  induction t using lines_induction with
  | nil => exact ⟨[], .nil, fun before => ⟨rfl, rfl⟩⟩
  | last l hne hl =>
    rw [inputLines_of_not_mem hl hne] at h ⊢
    obtain ⟨ps, hps, -, hg⟩ := exists_cut_of_line hl (h l List.mem_cons_self)
    exact ⟨ps, hps, hg⟩
  | line l rest hl ih =>
    rw [inputLines_asLine_append hl] at h ⊢
    obtain ⟨h₁, h₂⟩ := List.forall_mem_cons.1 h
    obtain ⟨ps, hps, hp, hg⟩ := exists_cut_of_line hl h₁
    obtain ⟨qs, hqs, hq⟩ := ih h₂
    have hc := hps.append_lineFeed hqs hp
    rw [Text.asLine, List.append_assoc]
    refine ⟨_, hc, fun before => ?_⟩
    -- The rest of the text stands behind the line and its line feed, one line further down.
    have hn : 1 + Text.lineFeeds (before ++ l ++ ['\n']) = 1 + Text.lineFeeds before + 1 := by
      have hz : Text.lineFeeds l = 0 := Text.lineFeeds_eq_zero hl
      rw [Text.lineFeeds_append, Text.lineFeeds_append, hz]
      rfl
    obtain ⟨ht₁, he₁⟩ := hg before
    obtain ⟨ht₂, he₂⟩ := hq (before ++ l ++ ['\n'])
    rw [hn] at he₂
    refine ⟨?_, ?_⟩
    · rw [readTokens_append_right, hps.flatMap_text, readTokens_cons, List.map_append,
        List.map_append, ht₁]
      simpa [Piece.token?, Piece.text] using ht₂
    · rw [readErrors_append_right, hps.flatMap_text, readErrors_cons, he₁]
      simpa [Piece.error?, Piece.text, List.zipIdx_cons] using he₂

/-! ## Tokens before the end -/

/-- The tokens of a scan without the one for the end of the text. -/
def Scan.tokensBeforeEnd (s : Scan) : List Token :=
  s.tokens.filter fun t => t.kind ≠ .endOfText

theorem Piece.kind_of_token? {p : Piece} {line : Nat} {t : Token} (h : p.token? line = some t) :
    t.kind ≠ .endOfText := by
  cases p with
  | word w =>
    cases h
    exact TokenKind.ofWord_ne (by simp) rfl w
  | symbol | string | number => cases h; simp
  | _ => cases h

theorem tokensBeforeEnd_scan {t : Text} {ps : List Piece} (h : IsCut t ps) :
    (scan t).tokensBeforeEnd = readTokens [] ps := by
  have hk : ∀ u ∈ readTokens [] ps, decide (u.kind ≠ .endOfText) = true := by
    intro u hu
    obtain ⟨a, -, ha⟩ := List.mem_filterMap.1 hu
    exact decide_eq_true (Piece.kind_of_token? ha)
  rw [Scan.tokensBeforeEnd, tokens_scan h, List.filter_append, List.filter_eq_self.2 hk]
  simp [Token.endOfText]

end ScriptLexer
