import ScriptLexer.Proofs.Modes

/-! # Scanning line by line

A line feed ends every piece that is closed: words, numbers and operators do not go on behind it, a
slash before it is a division, and a line comment is over. So if nothing is open at the end of a
text, what comes on the lines behind it is scanned as if it stood alone, and only the lines of its
tokens and errors move. -/

namespace ScriptLexer

def Token.moved (lines : Nat) (t : Token) : Token :=
  { t with line := t.line + lines }

def LexError.moved (lines : Nat) (e : LexError) : LexError :=
  { e with line := e.line + lines }

/-! ## Moving lines -/

theorem Piece.token?_add (p : Piece) (m n : Nat) :
    p.token? (m + n) = (p.token? n).map (Token.moved m) := by
  have hl : ((m + n : Nat) : Int) = (n : Int) + (m : Int) := by omega
  cases p <;> simp [token?, Token.moved, hl]

theorem Piece.error?_add (p : Piece) (m n : Nat) :
    p.error? (m + n) = (p.error? n).map (LexError.moved m) := by
  have hl : ((m + n : Nat) : Int) = (n : Int) + (m : Int) := by omega
  cases p <;> simp [error?, LexError.moved, LexError.unexpectedCharacter,
    LexError.unterminatedString, LexError.unterminatedComment, hl]

/-- What stands further below has the same tokens, on lines further below. -/
theorem readTokens_append (s t : Text) (ps : List Piece) :
    readTokens (s ++ t) ps = (readTokens t ps).map (Token.moved (Text.lineFeeds s)) := by
  induction ps generalizing t with
  | nil => rfl
  | cons p ps ih =>
    have hl : 1 + Text.lineFeeds (s ++ t) = Text.lineFeeds s + (1 + Text.lineFeeds t) := by
      rw [Text.lineFeeds_append]
      omega
    rw [readTokens_cons, readTokens_cons, List.append_assoc, ih, hl, p.token?_add, List.map_append]
    cases p.token? (1 + Text.lineFeeds t) <;> rfl

theorem readErrors_append (s t : Text) (ps : List Piece) :
    readErrors (s ++ t) ps = (readErrors t ps).map (LexError.moved (Text.lineFeeds s)) := by
  induction ps generalizing t with
  | nil => rfl
  | cons p ps ih =>
    have hl : 1 + Text.lineFeeds (s ++ (t ++ p.text)) =
        Text.lineFeeds s + (1 + Text.lineFeeds (t ++ p.text)) := by
      rw [Text.lineFeeds_append]
      omega
    rw [readErrors_cons, readErrors_cons, List.append_assoc, ih, hl, p.error?_add, List.map_append]
    cases p.error? (1 + Text.lineFeeds (t ++ p.text)) <;> rfl

theorem readTokens_append_right (before : Text) (ps qs : List Piece) :
    readTokens before (ps ++ qs) =
      readTokens before ps ++ readTokens (before ++ ps.flatMap Piece.text) qs := by
  induction ps generalizing before with
  | nil => simp [readTokens, placed]
  | cons p ps ih => simp [readTokens_cons, ih]

theorem readErrors_append_right (before : Text) (ps qs : List Piece) :
    readErrors before (ps ++ qs) =
      readErrors before ps ++ readErrors (before ++ ps.flatMap Piece.text) qs := by
  induction ps generalizing before with
  | nil => simp [readErrors, placed]
  | cons p ps ih => simp [readErrors_cons, ih]

/-! ## Blanks end pieces -/

variable {p : Piece} {after rest : Text} {b c : Char}

theorem Text.StopsRun.append_cons {q : Char → Bool} (h : Text.StopsRun q after)
    (hq : q b = false) : Text.StopsRun q (after ++ b :: rest) := by
  cases after with
  | nil => exact Text.stopsRun_cons.2 hq
  | cons c r => exact Text.stopsRun_cons.2 (Text.stopsRun_cons.1 h)

theorem head?_append_cons_ne (h : after.head? ≠ some c) (hc : b ≠ c) :
    (after ++ b :: rest).head? ≠ some c := by
  cases after with
  | nil => simpa using hc
  | cons d r => exact h

theorem not_startsFraction_append_cons (h : ¬ StartsFraction after) (hb : b ≠ '.')
    (hd : isDigit b = false) : ¬ StartsFraction (after ++ b :: rest) := by
  rintro ⟨d, r, he, hr⟩
  cases after with
  | nil => exact hb (List.cons.inj he).1
  | cons c t =>
    cases t with
    | nil =>
      obtain ⟨-, rfl, -⟩ : c = '.' ∧ b = d ∧ rest = r := by simpa using he
      rw [hr] at hd
      cases hd
    | cons e t =>
      obtain ⟨rfl, rfl, -⟩ : c = '.' ∧ e = d ∧ t ++ b :: rest = r := by simpa using he
      exact h ⟨e, t, rfl, hr⟩

/-- A closed piece may still stand where it does when a blank comes behind the text, except that a
line comment at the end goes on with a blank that is no line feed. -/
theorem Piece.EndsBefore.append_blank (h : p.EndsBefore after) (hp : p.unclosed? = none)
    (hb : isBlank b = true) (hl : ∀ body, p = .lineComment body → after = [] → b = '\n') :
    p.EndsBefore (after ++ b :: rest) := by
  obtain ⟨hm, hd, hw⟩ := plain_of_isBlank hb
  have hne : ∀ c ∈ marks, b ≠ c := fun c hc he => hm (he ▸ hc)
  cases p with
  | symbol s =>
    cases s
    case bang | equal | greater | less => exact head?_append_cons_ne h (hne '=' (by decide))
    case slash =>
      exact ⟨head?_append_cons_ne h.1 (hne '/' (by decide)),
        head?_append_cons_ne h.2 (hne '*' (by decide))⟩
    all_goals trivial
  | lineComment body =>
    intro c hc
    cases after with
    | nil =>
      obtain rfl : b = c := by simpa using hc
      exact hl body rfl rfl
    | cons d r => exact h c hc
  | number whole fraction =>
    cases fraction with
    | none =>
      exact ⟨h.1.append_cons hd, not_startsFraction_append_cons h.2 (hne '.' (by decide)) hd⟩
    | some f => exact Text.StopsRun.append_cons h hd
  | word w => exact Text.StopsRun.append_cons h (by rw [isWordCharacter, hd, hw]; rfl)
  | openComment | openString => cases hp
  | blank | blockComment | string | stray => trivial

theorem Piece.EndsBefore.append_lineFeed (h : p.EndsBefore after) (hp : p.unclosed? = none) :
    p.EndsBefore (after ++ '\n' :: rest) :=
  h.append_blank hp rfl fun _ _ _ => rfl

/-- Two cuts go together at a line feed if nothing is open at the end of the first. -/
theorem IsCut.append_lineFeed {a b : Text} {ps qs : List Piece} (ha : IsCut a ps)
    (hb : IsCut b qs) (hp : ∀ p ∈ ps, p.unclosed? = none) :
    IsCut (a ++ '\n' :: b) (ps ++ .blank '\n' :: qs) := by
  induction ha with
  | nil =>
    have hf : (Piece.blank '\n').Fits b := ⟨rfl, trivial⟩
    exact .cons hf hb
  | @cons p after ps hf _ ih =>
    obtain ⟨hc, hps⟩ := List.forall_mem_cons.1 hp
    rw [List.append_assoc]
    exact .cons ⟨hf.wellFormed, hf.endsBefore.append_lineFeed hc⟩ (ih hps)

/-- If scanning reports nothing open, no piece is. -/
theorem unclosed?_eq_none {a : Text} {ps : List Piece} (h : IsCut a ps)
    (he : ∀ e ∈ (scan a).errors,
      e.fault? ≠ some .unterminatedString ∧ e.fault? ≠ some .unterminatedComment) :
    ∀ p ∈ ps, p.unclosed? = none := by
  have hm : ∀ f, (Mode.code.after a).fault? = some f → False := by
    intro f hf
    cases f with
    | unexpectedCharacter => cases hm : Mode.code.after a <;> simp [hm, Mode.fault?] at hf
    | unterminatedString =>
      obtain ⟨e, hme, hfe⟩ := (exists_fault?_iff (by decide)).2 hf
      exact (he e hme).1 hfe
    | unterminatedComment =>
      obtain ⟨e, hme, hfe⟩ := (exists_fault?_iff (by decide)).2 hf
      exact (he e hme).2 hfe
  have hn : ps.filterMap Piece.unclosed? = [] := by
    rw [← h.reads.2.2, Option.eq_none_iff_forall_ne_some.2 hm]
    rfl
  simpa using hn

/-- Scanning goes on afresh at a line end. If scanning `a` reports nothing open, then `a`, a line feed
and `b` have the tokens of `a`, without the one for its end, and the errors of `a`, and behind them
the tokens and the errors of `b`, with only their lines moved by the lines of `a`. -/
theorem scan_append_lineFeed {a b : Text}
    (h : ∀ e ∈ (scan a).errors,
      e.fault? ≠ some .unterminatedString ∧ e.fault? ≠ some .unterminatedComment) :
    ∃ tokens, (scan a).tokens = tokens ++ [Token.endOfText (1 + Text.lineFeeds a : Nat)] ∧
      (scan (a ++ '\n' :: b)).tokens =
        tokens ++ (scan b).tokens.map (Token.moved (1 + Text.lineFeeds a)) ∧
      (scan (a ++ '\n' :: b)).errors =
        (scan a).errors ++ (scan b).errors.map (LexError.moved (1 + Text.lineFeeds a)) := by
  have ha := isCut_cut a
  have hb := isCut_cut b
  have hab := ha.append_lineFeed hb (unclosed?_eq_none ha h)
  have hl : Text.lineFeeds (a ++ ['\n']) = 1 + Text.lineFeeds a := by
    rw [Text.lineFeeds_append, Nat.add_comm]
    rfl
  have hend : Text.lineFeeds (a ++ '\n' :: b) = 1 + Text.lineFeeds a + Text.lineFeeds b := by
    rw [← hl, ← Text.lineFeeds_append, List.append_assoc]
    rfl
  refine ⟨_, tokens_scan ha, ?_, ?_⟩
  · have hr := readTokens_append (a ++ ['\n']) [] (cut b)
    rw [List.append_nil, hl] at hr
    rw [tokens_scan hab, tokens_scan hb, readTokens_append_right, ha.flatMap_text, readTokens_cons,
      List.map_append, ← hr, hend]
    simp [Piece.token?, Piece.text, Token.moved, Token.endOfText]
    omega
  · have hr := readErrors_append (a ++ ['\n']) [] (cut b)
    rw [List.append_nil, hl] at hr
    rw [errors_scan hab, errors_scan ha, errors_scan hb, readErrors_append_right, ha.flatMap_text,
      readErrors_cons, ← hr]
    simp [Piece.error?, Piece.text]

/-- A stray character, a number with a point behind it and a comment with a quote in it let an open
string start on the next line. -/
theorem scan_append_lineFeed_quote :
    let a := ['@', '1', '.', '/', '/', '\x22']
    (∀ e ∈ (scan a).errors,
      e.fault? ≠ some .unterminatedString ∧ e.fault? ≠ some .unterminatedComment) ∧
    ∃ tokens, (scan a).tokens = tokens ++ [Token.endOfText 1] ∧
      (scan (a ++ ['\n', '\x22'])).tokens = tokens ++ (scan ['\x22']).tokens.map (Token.moved 1) ∧
      (scan (a ++ ['\n', '\x22'])).errors =
        (scan a).errors ++ (scan ['\x22']).errors.map (LexError.moved 1) := by
  have h : ∀ e ∈ (scan ['@', '1', '.', '/', '/', '\x22']).errors,
      e.fault? ≠ some .unterminatedString ∧ e.fault? ≠ some .unterminatedComment := by
    decide +kernel
  exact ⟨h, scan_append_lineFeed h⟩

end ScriptLexer
