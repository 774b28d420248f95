import ScriptLexer.Proofs.Placement
import ScriptLexer.Proofs.Tokenizing

/-! # Scanning by modes

A reader that takes one character at a time and remembers only one of six modes cannot tell lexemes
apart, but it knows as much as the scanner about what is open at the end of a text, how many strings
were closed before, and which characters were read in vain. Where the reader stands between two
pieces of a cut it is idle: it is back in code, or has seen a slash or a line comment that what
follows lets end. An idle reader sees what one in code sees, so the pieces can be read one by one. -/

namespace ScriptLexer

/-- What a reader of single characters remembers. -/
inductive Mode where
  | code
  | slash
  | line
  | block
  | star
  | string
deriving DecidableEq, Repr

instance (c : Char) : Decidable (IsStray c) :=
  inferInstanceAs (Decidable (_ ∧ _ ∧ _ ∧ _))

namespace Mode

def next : Mode → Char → Mode
  | code, c => if c = '/' then slash else if c = '\x22' then string else code
  | slash, c =>
    if c = '/' then line else if c = '*' then block else if c = '\x22' then string else code
  | line, c => if c = '\n' then code else line
  | block, c => if c = '*' then star else block
  | star, c => if c = '/' then code else if c = '*' then star else block
  | string, c => if c = '\x22' then code else string

/-- The mode behind a text. -/
def after (m : Mode) (t : Text) : Mode :=
  t.foldl next m

/-- The characters of a text, each with the mode in which it is read. -/
def trace : Mode → Text → List (Mode × Char)
  | _, [] => []
  | m, c :: t => (m, c) :: trace (m.next c) t

/-- How often reading goes from a string back to code. -/
def closings (m : Mode) (t : Text) : Nat :=
  (m.trace t).countP fun s => s.1 = string ∧ s.1.next s.2 = code

/-- The characters read in code, or behind a slash, that nothing starts with. -/
def strays (m : Mode) (t : Text) : Text :=
  ((m.trace t).filter fun s => (s.1 = code ∨ s.1 = slash) ∧ IsStray s.2).map Prod.snd

/-- What is wrong with a text that ends in this mode. -/
def fault? : Mode → Option Fault
  | string => some .unterminatedString
  | block | star => some .unterminatedComment
  | _ => none

/-! ## Readings -/

/-- All that reading `t` from the mode `m` comes to. -/
structure Reads (m : Mode) (t : Text) (m' : Mode) (closed : Nat) (stray : Text) : Prop where
  after_eq : m.after t = m'
  closings_eq : m.closings t = closed
  strays_eq : m.strays t = stray

variable {m m' m'' : Mode} {s t : Text} {c : Char}

theorem trace_append (m : Mode) (s t : Text) :
    m.trace (s ++ t) = m.trace s ++ (m.after s).trace t := by
  induction s generalizing m with
  | nil => rfl
  | cons c s ih => simp [trace, ih, after]

theorem closings_append (m : Mode) (s t : Text) :
    m.closings (s ++ t) = m.closings s + (m.after s).closings t := by
  simp [closings, trace_append]

theorem strays_append (m : Mode) (s t : Text) :
    m.strays (s ++ t) = m.strays s ++ (m.after s).strays t := by
  simp [strays, trace_append]

theorem reads_nil (m : Mode) : m.Reads [] m 0 [] :=
  ⟨rfl, rfl, rfl⟩

theorem Reads.append {k n : Nat} {xs ys : Text} (h : m.Reads s m' k xs)
    (h' : m'.Reads t m'' n ys) : m.Reads (s ++ t) m'' (k + n) (xs ++ ys) := by
  obtain ⟨rfl, rfl, rfl⟩ := h
  obtain ⟨rfl, rfl, rfl⟩ := h'
  exact ⟨by simp [after], closings_append m s t, strays_append m s t⟩

/-- Reading on where nothing was noticed. -/
theorem Reads.cons {n : Nat} {ys : Text} (h : m.Reads [c] m' 0 []) (h' : m'.Reads t m'' n ys) :
    m.Reads (c :: t) m'' n ys := by
  simpa using h.append h'

theorem reads_of_forall (h : ∀ c ∈ t, m.Reads [c] m 0 []) : m.Reads t m 0 [] := by
  induction t with
  | nil => exact m.reads_nil
  | cons c t ih =>
    exact (h c List.mem_cons_self).cons (ih fun d hd => h d (List.mem_cons_of_mem c hd))

theorem reads_code (hs : c ≠ '/') (hq : c ≠ '\x22') (h : ¬ IsStray c) :
    code.Reads [c] code 0 [] := by
  constructor <;> simp [after, next, closings, strays, trace, hs, hq, h]

theorem reads_line (h : c ≠ '\n') : line.Reads [c] line 0 [] := by
  constructor <;> simp [after, next, closings, strays, trace, h]

theorem reads_string (h : c ≠ '\x22') : string.Reads [c] string 0 [] := by
  constructor <;> simp [after, next, closings, strays, trace, h]

theorem reads_block (c : Char) : block.Reads [c] (block.next c) 0 [] :=
  ⟨rfl, rfl, rfl⟩

theorem reads_star (c : Char) : star.Reads [c] (star.next c) 0 [] :=
  ⟨rfl, rfl, rfl⟩

/-! ## Comments -/

/-- A comment goes on with every character but a slash behind a star. -/
theorem reads_of_comment (hm : m = block ∨ m = star) (h : m = star → c ≠ '/') :
    m.Reads [c] (if c = '*' then star else block) 0 [] := by
  rcases hm with rfl | rfl
  · exact reads_block c
  · have hr := reads_star c
    simpa only [next, if_neg (h rfl)] using hr

/-- A comment ends where its body does. -/
theorem reads_blockComment {body : Text} (hb : ClosesOnce body) (hm : m = block ∨ m = star)
    (h : m = star → body.head? ≠ some '/') : m.Reads (body ++ ['*', '/']) code 0 [] := by
  induction body generalizing m with
  | nil =>
    have h₁ := reads_of_comment (c := '*') hm fun _ => by decide
    exact h₁.cons ⟨rfl, rfl, rfl⟩
  | cons c body ih =>
    obtain ⟨hb, hn⟩ := closesOnce_cons.1 hb
    have h₁ := reads_of_comment (c := c) hm fun hs => by simpa using h hs
    refine h₁.cons (ih hb (by split <;> simp) ?_)
    intro hs hh
    by_cases hc : c = '*'
    · exact hn ⟨hc, hh⟩
    · simp [hc] at hs

theorem reads_openComment {body : Text} (hb : ¬ ['*', '/'] <:+: body) (hm : m = block ∨ m = star)
    (h : m = star → body.head? ≠ some '/') :
    ∃ m', (m' = block ∨ m' = star) ∧ m.Reads body m' 0 [] := by
  induction body generalizing m with
  | nil => exact ⟨m, hm, m.reads_nil⟩
  | cons c body ih =>
    have h₁ := reads_of_comment (c := c) hm fun hs => by simpa using h hs
    have hb' : ¬ ['*', '/'] <:+: body := fun hi => hb (List.infix_cons hi)
    obtain ⟨m', hm', h₂⟩ := ih hb' (m := if c = '*' then star else block) (by split <;> simp) (by
      intro hs hh
      by_cases hc : c = '*'
      · obtain ⟨rest, rfl⟩ := List.head?_eq_some_iff.1 hh
        exact hb ⟨[], rest, by simp [hc]⟩
      · simp [hc] at hs)
    exact ⟨m', hm', h₁.cons h₂⟩

/-! ## Between pieces -/

/-- In these modes nothing is open that the text `t` would not end. -/
def Idle (t : Text) : Mode → Prop
  | code => True
  | slash => Symbol.EndsBefore t .slash
  | line => ∀ c ∈ t.head?, c = '\n'
  | _ => False

theorem Idle.next_eq (h : m.Idle (c :: t)) : m.next c = code.next c := by
  cases m with
  | code => rfl
  | slash =>
    obtain ⟨hs, hb⟩ := h
    simp_all [next]
  | line =>
    obtain rfl : c = '\n' := h c rfl
    rfl
  | block | star | string => exact h.elim

/-- An idle reader sees what one in code sees. -/
theorem Idle.eq_code (h : m.Idle t) :
    (m.after t).fault? = (code.after t).fault? ∧ m.closings t = code.closings t ∧
      m.strays t = code.strays t := by
  cases t with
  | nil => cases m <;> first | exact h.elim | exact ⟨rfl, rfl, rfl⟩
  | cons c t =>
    cases m with
    | code => exact ⟨rfl, rfl, rfl⟩
    | slash =>
      have hn : slash.next c = code.next c := h.next_eq
      by_cases hc : IsStray c <;> simp [after, closings, strays, trace, hn, hc]
    | line =>
      obtain rfl : c = '\n' := h c rfl
      exact ⟨rfl, rfl, rfl⟩
    | block | star | string => exact h.elim

end Mode

/-! ## Pieces -/

namespace Piece

def isString : Piece → Bool
  | string _ => true
  | _ => false

/-- The character of a piece that means nothing. -/
def stray? : Piece → Option Char
  | stray c => some c
  | _ => none

/-- What is wrong with a piece that is not closed. -/
def unclosed? : Piece → Option Fault
  | openString _ => some .unterminatedString
  | openComment _ => some .unterminatedComment
  | _ => none

end Piece

theorem reads_commentStart : Mode.code.Reads ['/', '*'] .block 0 [] :=
  ⟨rfl, by decide, by decide⟩

theorem reads_openString {body : Text} (h : '\x22' ∉ body) :
    Mode.code.Reads ('\x22' :: body) .string 0 [] := by
  have ho : Mode.code.Reads ['\x22'] .string 0 [] := ⟨rfl, by decide, by decide⟩
  exact ho.cons (Mode.reads_of_forall fun c hc => Mode.reads_string fun hq => h (hq ▸ hc))

/-- Word characters and points are only read on. -/
theorem reads_code_run {t : Text} (h : ∀ c ∈ t, isWordCharacter c = true ∨ c = '.') :
    Mode.code.Reads t .code 0 [] := by
  refine Mode.reads_of_forall fun c hc => ?_
  rcases h c hc with hw | rfl
  · refine Mode.reads_code ?_ ?_ (not_isStray_of_isWordCharacter hw) <;> rintro rfl <;> cases hw
  · exact Mode.reads_code (by decide) (by decide) (by decide)

theorem reads_symbol {s : Symbol} {after : Text} (h : s.EndsBefore after) :
    ∃ m, Mode.code.Reads s.spelling m 0 [] ∧ m.Idle after := by
  by_cases hs : s = .slash
  · subst hs
    exact ⟨.slash, ⟨rfl, by decide, by decide⟩, h⟩
  · refine ⟨.code, Mode.reads_of_forall fun c hc => ?_, trivial⟩
    have hm : ∀ c ∈ s.spelling, c ∈ marks ∧ c ≠ '/' ∧ c ≠ '\x22' := by
      cases s
      case slash => exact absurd rfl hs
      all_goals exact Text.forall_mem_of_all (by decide)
    obtain ⟨hm, hn, hq⟩ := hm c hc
    exact Mode.reads_code hn hq (not_isStray_of_mem_marks hm)

/-- A piece that is closed leaves an idle reader behind. -/
theorem Piece.Fits.reads {p : Piece} {after : Text} (h : p.Fits after) (hp : p.unclosed? = none) :
    ∃ m, Mode.code.Reads p.text m (if p.isString then 1 else 0) p.stray?.toList ∧ m.Idle after := by
  obtain ⟨hw, he⟩ := h
  cases p with
  | symbol s => exact reads_symbol he
  | blank c =>
    obtain ⟨hm, -, -⟩ := plain_of_isBlank hw
    refine ⟨.code, Mode.reads_code ?_ ?_ (not_isStray_of_isBlank hw), trivial⟩ <;>
      rintro rfl <;> exact hm (by decide)
  | lineComment body =>
    have hb : Mode.line.Reads body .line 0 [] :=
      Mode.reads_of_forall fun c hc => Mode.reads_line fun hn => hw (hn ▸ hc)
    have ho : Mode.code.Reads ['/', '/'] .line 0 [] := ⟨rfl, by decide, by decide⟩
    exact ⟨.line, ho.append hb, he⟩
  | blockComment body =>
    have hb := Mode.reads_blockComment (m := .block) hw (.inl rfl) (by simp)
    exact ⟨.code, reads_commentStart.append hb, trivial⟩
  | string body =>
    have hc : Mode.string.Reads ['\x22'] .code 1 [] := ⟨rfl, by decide, by decide⟩
    exact ⟨.code, (reads_openString hw).append hc, trivial⟩
  | number whole fraction => exact ⟨.code, reads_code_run hw.mem_number, trivial⟩
  | word w =>
    have hw : IsWord w := hw
    exact ⟨.code, reads_code_run fun c hc => .inl (hw.isWordCharacter c hc), trivial⟩
  | stray c =>
    have hs : c ≠ '/' := by rintro rfl; exact hw.1 (by decide)
    have hq : c ≠ '\x22' := by rintro rfl; exact hw.1 (by decide)
    have hw : IsStray c := hw
    refine ⟨.code, ⟨?_, ?_, ?_⟩, trivial⟩ <;>
      simp [text, isString, stray?, Mode.after, Mode.next, Mode.closings, Mode.strays, Mode.trace,
        hs, hq, hw]
  | openComment | openString => cases hp

/-- A piece that is not closed is the last. -/
theorem Piece.Fits.eq_nil_of_unclosed? {p : Piece} {after : Text} {f : Fault} (h : p.Fits after)
    (hp : p.unclosed? = some f) : after = [] := by
  cases p with
  | openString | openComment => exact h.endsBefore
  | _ => cases hp

/-- A piece that is not closed leaves the reader in a mode that says so. -/
theorem Piece.WellFormed.reads_unclosed {p : Piece} {f : Fault} (h : p.WellFormed)
    (hp : p.unclosed? = some f) : ∃ m, Mode.code.Reads p.text m 0 [] ∧ m.fault? = some f := by
  cases p with
  | openString body => exact ⟨.string, reads_openString h, hp⟩
  | openComment body =>
    obtain ⟨m, hm, hb⟩ := Mode.reads_openComment (m := .block) h (.inl rfl) (by simp)
    refine ⟨m, reads_commentStart.append hb, ?_⟩
    rcases hm with rfl | rfl <;> exact hp
  | _ => cases hp

/-- A cut is read piece by piece. -/
theorem IsCut.reads {t : Text} {ps : List Piece} (h : IsCut t ps) :
    Mode.code.closings t = ps.countP Piece.isString ∧
      Mode.code.strays t = ps.filterMap Piece.stray? ∧
        (Mode.code.after t).fault?.toList = ps.filterMap Piece.unclosed? := by
  induction h with
  | nil => exact ⟨rfl, rfl, rfl⟩
  | @cons p after ps hf hr ih =>
    cases hp : p.unclosed? with
    | none =>
      obtain ⟨m, ⟨hm, hc, hs⟩, hi⟩ := hf.reads hp
      obtain ⟨ha, hc', hs'⟩ := hi.eq_code
      have hn : (Mode.code.after (p.text ++ after)).fault? = (Mode.code.after after).fault? := by
        rw [← ha, ← hm, Mode.after, List.foldl_append]
        rfl
      refine ⟨?_, ?_, ?_⟩
      · rw [Mode.closings_append, hm, hc, hc', ih.1, List.countP_cons, Nat.add_comm]
      · rw [Mode.strays_append, hm, hs, hs', ih.2.1, ← filterMap_cons_toList]
      · rw [hn, ih.2.2, List.filterMap_cons_none hp]
    | some f =>
      obtain ⟨m, ⟨hm, hc, hs⟩, hmf⟩ := hf.wellFormed.reads_unclosed hp
      obtain rfl := hf.eq_nil_of_unclosed? hp
      obtain rfl : ps = [] := by rw [hr.eq_cut, cut_nil]
      rw [List.append_nil, hc, hs, hm, hmf]
      cases p with
      | openString | openComment => exact ⟨rfl, rfl, congrArg Option.toList hp.symm⟩
      | _ => cases hp

/-! ## Scanning -/

/-- What an error says to be open at the end of a text. -/
def LexError.unclosed? (e : LexError) : Option Fault :=
  match e.fault? with
  | some .unexpectedCharacter => none
  | f => f

theorem Piece.countP_token? (p : Piece) (line : Nat) :
    (p.token? line).toList.countP (fun t => t.kind = .string) = if p.isString then 1 else 0 := by
  cases p with
  | word w =>
    have hk : TokenKind.ofWord w ≠ .string := TokenKind.ofWord_ne (by simp) rfl w
    simp [token?, isString, hk]
  | _ => rfl

theorem countP_readTokens (before : Text) (ps : List Piece) :
    (readTokens before ps).countP (fun t => t.kind = .string) = ps.countP Piece.isString := by
  induction ps generalizing before with
  | nil => rfl
  | cons p ps ih =>
    rw [readTokens_cons, List.countP_append, ih, p.countP_token?, List.countP_cons, Nat.add_comm]

theorem filterMap_found?_readErrors (before : Text) (ps : List Piece) :
    (readErrors before ps).filterMap LexError.found? =
      (ps.filterMap Piece.stray?).map fun c => [c] := by
  induction ps generalizing before with
  | nil => rfl
  | cons p ps ih =>
    rw [readErrors_cons, List.filterMap_append, ih, filterMap_cons_toList, List.map_append]
    cases p <;> rfl

theorem filterMap_unclosed?_readErrors (before : Text) (ps : List Piece) :
    (readErrors before ps).filterMap LexError.unclosed? = ps.filterMap Piece.unclosed? := by
  induction ps generalizing before with
  | nil => rfl
  | cons p ps ih =>
    rw [readErrors_cons, List.filterMap_append, ih, filterMap_cons_toList]
    cases p <;> rfl

/-- The errors of a text that speak of something open are what its last mode says. -/
theorem filterMap_unclosed?_scan (source : Text) :
    (scan source).errors.filterMap LexError.unclosed? = (Mode.code.after source).fault?.toList := by
  have hc := isCut_cut source
  rw [errors_scan hc, filterMap_unclosed?_readErrors, hc.reads.2.2]

theorem exists_fault?_iff {source : Text} {f : Fault} (hf : f ≠ .unexpectedCharacter) :
    (∃ e ∈ (scan source).errors, e.fault? = some f) ↔
      (Mode.code.after source).fault? = some f := by
  have he : ∀ e : LexError, e.unclosed? = some f ↔ e.fault? = some f := by
    intro e
    unfold LexError.unclosed?
    split
    · next h => simp [h, hf.symm]
    · rfl
  have hm : f ∈ (scan source).errors.filterMap LexError.unclosed? ↔
      f ∈ (Mode.code.after source).fault?.toList := by rw [filterMap_unclosed?_scan]
  simpa [he] using hm

/-- Scanning agrees with the six modes. A string or a comment is reported as open exactly if the text
ends in a mode of its own, once at most and never both; there are as many string tokens as returns
from a string to code; and the unexpected characters are those that were read in code or behind a
slash and start nothing. The stepwise lexer gives the same tokens and errors. -/
theorem scan_follows_modes (source : Text) :
    ((∃ e ∈ (scan source).errors, e.fault? = some .unterminatedString) ↔
        Mode.code.after source = .string) ∧
      ((∃ e ∈ (scan source).errors, e.fault? = some .unterminatedComment) ↔
        Mode.code.after source = .block ∨ Mode.code.after source = .star) ∧
      (scan source).errors.countP (fun e => e.unclosed?.isSome) ≤ 1 ∧
      (scan source).tokens.countP (fun t => t.kind = .string) = Mode.code.closings source ∧
      (scan source).errors.filterMap LexError.found? =
        (Mode.code.strays source).map (fun c => [c]) ∧
      ∃ ended, Lexer.tokenize { source } = (.ok (scan source).tokens, ended) ∧
        ended.errors = (scan source).errors := by
  have hc := isCut_cut source
  obtain ⟨hn, hs, -⟩ := hc.reads
  obtain ⟨ended, ht, -, -, he, -⟩ := Lexer.tokenize_eq { source }
  refine ⟨?_, ?_, ?_, ?_, ?_, ended, ht, he⟩
  · rw [exists_fault?_iff (by decide)]
    cases Mode.code.after source <;> decide
  · rw [exists_fault?_iff (by decide)]
    cases Mode.code.after source <;> decide
  · rw [← List.length_filterMap_eq_countP, filterMap_unclosed?_scan]
    cases (Mode.code.after source).fault? <;> simp
  · rw [tokens_scan hc, List.countP_append, countP_readTokens, hn]
    rfl
  · rw [errors_scan hc, filterMap_found?_readErrors, hs]

end ScriptLexer
