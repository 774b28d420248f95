import ScriptLexer.Lexer.Tokenize
import ScriptLexer.Proofs.CutUniqueness
import ScriptLexer.Proofs.NumberText

/-! # The stepwise lexer scans

A lexer that starts a lexeme at its cursor and reads one token has read the first piece of what was
unread: the cursor has passed the piece, its token is added, its error comes out. So the lexer that
reads on to the end has gone through the cut of its source, and what it gives is the scan of it,
whatever it had read before. -/

namespace ScriptLexer

/-- How reading a piece ends that leaves the cursor on `line`. -/
def Piece.outcome (line : Nat) (p : Piece) : Except Lexer.Failure Unit :=
  match p.error? line with
  | some e => .error (.lexical e)
  | none => .ok ()

namespace Lexer

/-- The lexer after the piece that starts at its cursor. -/
def past (p : Piece) (l : Lexer) : Lexer :=
  { l with
    start := l.current
    startLine := l.line
    current := l.current + p.text.length
    line := l.line + Text.lineFeeds p.text
    tokens := l.tokens ++ (p.token? l.line).toList }

variable {l : Lexer} {s t rest : Text} {c : Char}

/-! ## Moves -/

theorem unread_consume (h : l.unread = s ++ t) : (l.consume s).unread = t := by
  show l.source.drop (l.current + s.length) = t
  rw [← List.drop_drop]
  show l.unread.drop s.length = t
  rw [h, List.drop_left]

theorem unread_begin_consume (h : l.unread = c :: rest) : (l.begin.consume [c]).unread = rest :=
  unread_consume (l := l.begin) (s := [c]) h

theorem consume_consume (l : Lexer) (s t : Text) :
    (l.consume s).consume t = l.consume (s ++ t) := by
  simp [consume, Nat.add_assoc]

/-- A lexeme that starts at the cursor is what the cursor has passed since. -/
theorem lexeme_begin_consume (h : l.unread = s ++ t) : (l.begin.consume s).lexeme = s := by
  show (l.source.take (l.current + s.length)).drop l.current = s
  rw [List.drop_take, Nat.add_sub_cancel_left]
  show l.unread.take s.length = s
  rw [h, List.take_left]

theorem innerLexeme_begin_consume {a b : Char} {body : Text}
    (h : l.unread = a :: body ++ [b] ++ t) :
    (l.begin.consume (a :: body ++ [b])).innerLexeme = body := by
  show (l.source.take (l.current + (a :: body ++ [b]).length - 1)).drop (l.current + 1) = body
  have hn : l.current + (a :: body ++ [b]).length - 1 - (l.current + 1) = body.length := by
    simp only [List.length_append, List.length_cons, List.length_nil]
    omega
  rw [List.drop_take, hn, ← List.drop_drop]
  show (l.unread.drop 1).take body.length = body
  rw [h]
  simp

theorem push_begin_consume {p : Piece} {kind : TokenKind} {literal : Option Literal}
    (h : l.unread = p.text ++ t)
    (ht : p.token? l.line = some ⟨kind, p.text, literal, l.line⟩) :
    (l.begin.consume p.text).push kind literal = l.past p := by
  simp only [push, lexeme_begin_consume h, past, ht]
  rfl

theorem begin_consume {p : Piece} (ht : p.token? l.line = none) :
    l.begin.consume p.text = l.past p := by
  simp [past, ht, consume, begin]

theorem unread_past {p : Piece} (h : l.unread = p.text ++ t) : (l.past p).unread = t :=
  unread_consume (l := l) h

/-! ## Readers

Each reader continues a lexeme whose first character the cursor has passed. -/

theorem slash_begin (h : l.unread = '/' :: rest) :
    (l.begin.consume ['/']).slash =
      ((Piece.readSlash rest).1.outcome (l.past (Piece.readSlash rest).1).line,
        l.past (Piece.readSlash rest).1) := by
  have hu := unread_begin_consume h
  unfold slash
  rw [hu]
  split
  · next r =>
    rw [consume_consume]
    exact Prod.ext rfl (begin_consume (p := .lineComment (r.takeWhile (· ≠ '\n'))) rfl)
  · next r =>
    have hb : ((l.begin.consume ['/']).consume ['*']).unread = r := unread_consume (t := r) hu
    cases hs : splitComment r with
    | some found =>
      simp only [blockComment, hb, hs]
      simp only [Piece.readSlash, hs, consume_consume]
      exact Prod.ext rfl (begin_consume (p := .blockComment found.1) rfl)
    | none =>
      have hp := begin_consume (l := l) (p := .openComment r) rfl
      simp only [blockComment, hb, hs]
      simp only [Piece.readSlash, hs, consume_consume]
      exact Prod.ext (by rw [← hp]; rfl) hp
  · next hl hb =>
    rw [Piece.readSlash_symbol ⟨Text.head?_ne_some hl, Text.head?_ne_some hb⟩]
    exact Prod.ext rfl (push_begin_consume (p := .symbol .slash) h rfl)

theorem string_begin (h : l.unread = '\x22' :: rest) :
    (l.begin.consume ['\x22']).string =
      ((Piece.read '\x22' rest).1.outcome (l.past (Piece.read '\x22' rest).1).line,
        l.past (Piece.read '\x22' rest).1) := by
  have hu := unread_begin_consume h
  have hl : Lead.of '\x22' = .quote := rfl
  cases hs : splitString rest with
  | some found =>
    have ht : l.unread = '\x22' :: found.1 ++ ['\x22'] ++ found.2 := by
      rw [h, ← splitString_eq hs]
      simp
    have hi := innerLexeme_begin_consume ht
    simp only [string, Piece.read, hl, hu, hs, consume_consume]
    refine Prod.ext rfl ?_
    rw [← push_begin_consume (p := .string found.1) ht rfl]
    exact congrArg (fun b => push .string (some (.text b)) _) hi
  | none =>
    have hp := begin_consume (l := l) (p := .openString rest) rfl
    simp only [string, Piece.read, hl, hu, hs, consume_consume]
    exact Prod.ext (by rw [← hp]; rfl) hp

theorem readNumber_text_eq (c : Char) (rest : Text) :
    (Piece.readNumber c rest).1.text = c :: numberTail rest := by
  unfold Piece.readNumber numberTail
  split <;> simp [Piece.text, *]

theorem exists_readNumber_eq (c : Char) (rest : Text) :
    ∃ whole fraction, (Piece.readNumber c rest).1 = .number whole fraction := by
  unfold Piece.readNumber
  split <;> exact ⟨_, _, rfl⟩

theorem number_begin (hc : isDigit c = true) (h : l.unread = c :: rest) :
    (l.begin.consume [c]).number =
      ((Piece.readNumber c rest).1.outcome (l.past (Piece.readNumber c rest).1).line,
        l.past (Piece.readNumber c rest).1) := by
  have hu := unread_begin_consume h
  have ht := Piece.readNumber_text c rest
  have hf := (Piece.readNumber_fits hc rest).wellFormed
  have hn := readNumber_text_eq c rest
  obtain ⟨whole, fraction, hp⟩ := exists_readNumber_eq c rest
  rw [hp] at ht hf hn ⊢
  rw [← h] at ht
  -- The lexeme is passed as a text, so its value comes from the reader of numeric text.
  simp only [number, hu, consume_consume, List.singleton_append, ← hn,
    lexeme_begin_consume ht.symm, Binary64.ofText?_number hf]
  exact Prod.ext rfl (push_begin_consume (p := .number whole fraction) ht.symm rfl)

theorem identifier_begin (h : l.unread = c :: rest) :
    (l.begin.consume [c]).identifier =
      (.ok (), l.past (.word (c :: rest.takeWhile isWordCharacter))) := by
  have hu := unread_begin_consume h
  have ht : l.unread = c :: rest.takeWhile isWordCharacter ++ rest.dropWhile isWordCharacter := by
    rw [h, List.cons_append, List.takeWhile_append_dropWhile]
  simp only [identifier, hu, consume_consume, List.singleton_append, lexeme_begin_consume ht]
  exact Prod.ext rfl (push_begin_consume (p := .word _) ht rfl)

theorem equalSuffixed_begin {single double : Symbol} (h : l.unread = c :: rest)
    (hs : Symbol.ofEqualSuffixed? c = some (single, double)) :
    (l.begin.consume [c]).equalSuffixed single double = l.past (Piece.read c rest).1 := by
  have hu := unread_begin_consume h
  have hl : Lead.of c = .equalSuffixed single double := by
    unfold Symbol.ofEqualSuffixed? at hs
    split at hs <;> cases hs <;> rfl
  obtain ⟨h₁, h₂⟩ := Symbol.spelling_of_ofEqualSuffixed? hs
  unfold equalSuffixed
  rw [hu]
  split
  · next r =>
    have ht : l.unread = (Piece.symbol double).text ++ r := by
      rw [Piece.text, h₂, h]
      rfl
    have hc : ['='] = (Piece.symbol double).text.drop 1 := by rw [Piece.text, h₂]; rfl
    simp only [Piece.read, hl, consume_consume]
    rw [← push_begin_consume ht rfl, Piece.text, h₂]
    rfl
  · next hne =>
    have ht : l.unread = (Piece.symbol single).text ++ rest := by
      rw [Piece.text, h₁, h]
      rfl
    rw [Piece.read_equalSuffixed hl (Text.head?_ne_some hne), ← push_begin_consume ht rfl,
      Piece.text, h₁]

/-- Reading one token is reading the first piece of what is unread. -/
theorem scanToken_begin (h : l.unread = c :: rest) :
    l.begin.scanToken =
      ((Piece.read c rest).1.outcome (l.past (Piece.read c rest).1).line,
        l.past (Piece.read c rest).1) := by
  have hu : l.begin.unread = c :: rest := h
  unfold scanToken
  rw [hu]
  unfold readPiece
  dsimp only
  cases hl : Lead.of c with
  | symbol s =>
    have hc := Symbol.spelling_of_ofPunctuation? (Lead.ofPunctuation?_of_eq_symbol hl)
    have ht : l.unread = (Piece.symbol s).text ++ rest := by rw [Piece.text, hc, h]; rfl
    simp only [Piece.read, hl]
    rw [← push_begin_consume ht rfl, Piece.text, hc]
    rfl
  | equalSuffixed single double =>
    have hs := Lead.ofEqualSuffixed?_of_eq hl
    dsimp only
    rw [equalSuffixed_begin h hs]
    refine Prod.ext ?_ rfl
    simp only [Piece.read, hl]
    split <;> rfl
  | slash =>
    obtain rfl := Lead.eq_slash hl
    exact slash_begin h
  | blank =>
    simp only [Piece.read, hl]
    exact Prod.ext rfl (begin_consume (p := .blank c) rfl)
  | quote =>
    obtain rfl := Lead.eq_quote hl
    exact string_begin h
  | digit =>
    have hn := number_begin (Lead.of_eq_digit_iff.1 hl) h
    simpa only [Piece.read, hl] using hn
  | letter =>
    have hi := identifier_begin h
    simp only [Piece.read, hl]
    exact hi
  | stray =>
    have hp := begin_consume (l := l) (p := .stray c) rfl
    simp only [Piece.read, hl]
    exact Prod.ext (by rw [← hp]; rfl) hp

/-! ## The whole source -/

/-- The lexer `ended` has read everything that `l` had left, and has what was found there on top of
what `l` had. -/
structure ReadsAll (l ended : Lexer) (found : Scan) : Prop where
  source : ended.source = l.source
  current : ended.current = l.current + l.unread.length
  line : ended.line = l.line + Text.lineFeeds l.unread
  tokens : ended.tokens ++ [Token.endOfText ended.line] = l.tokens ++ found.tokens
  errors : ended.errors = l.errors ++ found.errors

theorem ReadsAll.nothing (h : l.unread = []) :
    ReadsAll l l (Scan.ofPieces l.line (cut l.unread)) := by
  rw [h, cut_nil]
  constructor <;> simp [h, Scan.ofPieces]

/-- Reading on from behind a piece finds the piece and what is behind it. -/
theorem ReadsAll.behind {p : Piece} {m ended : Lexer} {ps : List Piece} (h : l.unread = p.text ++ t)
    (hm : m = { l.past p with errors := l.errors ++ (p.error? (l.past p).line).toList })
    (hr : ReadsAll m ended (Scan.ofPieces m.line ps)) :
    ReadsAll l ended (Scan.ofPieces l.line (p :: ps)) := by
  subst hm
  obtain ⟨hs, hc, hl, ht, he⟩ := hr
  have hu : Lexer.unread { l.past p with
      errors := l.errors ++ (p.error? (l.past p).line).toList } = t := unread_past h
  rw [hu] at hc hl
  refine ⟨hs, ?_, ?_, ?_, ?_⟩
  · rw [hc, h, List.length_append, ← Nat.add_assoc]
    rfl
  · rw [hl, h, Text.lineFeeds_append, ← Nat.add_assoc]
    rfl
  · rw [ht]
    simp [past, Scan.ofPieces]
  · rw [he]
    simp [past, Scan.ofPieces]

/-- The only error that halts is that of a comment which reaches the end of the text. -/
theorem nil_of_halts {p : Piece} {e : LexError} {line : Nat} (hf : p.Fits t)
    (he : p.error? line = some e) (hh : e.halts = true) : t = [] := by
  cases p with
  | openComment body => exact hf.endsBefore
  | stray b =>
    cases he
    simp [LexError.halts, LexError.unexpectedCharacter] at hh
  | openString body =>
    cases he
    simp [LexError.halts, LexError.unterminatedString] at hh
  | _ => cases he

theorem readAll_eq (l : Lexer) :
    ∃ ended, l.readAll = (.ok (), ended) ∧
      ReadsAll l ended (Scan.ofPieces l.line (cut l.unread)) := by
  -- By induction on how much is unread. Reading goes on behind the first piece, with its error
  -- recorded if it has one, unless that error halts; then nothing is left to read.
  induction hn : l.unread.length using Nat.strong_induction_on generalizing l with
  | _ n ih =>
    rw [readAll]
    by_cases hu : l.unread = []
    · exact ⟨l, by rw [if_pos hu], .nothing hu⟩
    · rw [if_neg hu]
      obtain ⟨c, rest, hc⟩ := List.exists_cons_of_ne_nil hu
      rw [scanToken_begin hc, hc, cut_cons]
      have hf := Piece.read_fits c rest
      have ht := Piece.read_text c rest
      have hlt := Piece.length_read_lt c rest
      generalize (Piece.read c rest).1 = p at *
      generalize (Piece.read c rest).2 = after at *
      rw [← ht] at hc
      have hu' : (l.past p).unread = after := unread_past hc
      have hn' : after.length < n := by rw [← hn, hc, ht]; exact hlt
      cases he : p.error? (l.past p).line with
      | none =>
        obtain ⟨ended, hr, ha⟩ := ih after.length hn' (l.past p) (by rw [hu'])
        rw [hu'] at ha
        refine ⟨ended, by simp [Piece.outcome, he, hr], .behind hc ?_ ha⟩
        rw [he]
        simp [past]
      | some e =>
        have hr' : ((l.past p).record e).unread = after := hu'
        have hb : (l.past p).record e =
            { l.past p with errors := l.errors ++ (p.error? (l.past p).line).toList } := by
          rw [he]
          rfl
        cases hh : e.halts with
        | true =>
          obtain rfl := nil_of_halts hf he hh
          refine ⟨(l.past p).record e, by simp [Piece.outcome, he, hh], .behind hc hb ?_⟩
          have hz := ReadsAll.nothing hr'
          rwa [hr'] at hz
        | false =>
          obtain ⟨ended, hr, ha⟩ := ih after.length hn' ((l.past p).record e) (by rw [hr'])
          rw [hr'] at ha
          exact ⟨ended, by simp [Piece.outcome, he, hh, hr], .behind hc hb ha⟩

/-- Tokenizing gives the scan of the source, and leaves the cursor at its end. -/
theorem tokenize_eq (l : Lexer) :
    ∃ ended, l.tokenize = (.ok (scan l.source).tokens, ended) ∧ ended.source = l.source ∧
      ended.tokens = (scan l.source).tokens ∧ ended.errors = (scan l.source).errors ∧
      ended.current = l.source.length ∧ ended.line = 1 + Text.lineFeeds l.source := by
  obtain ⟨ended, hr, hs, hc, hl, ht, he⟩ := readAll_eq l.rewind
  have hu : l.rewind.unread = l.source := rfl
  rw [hu] at hc hl ht he
  have ht' : ended.close.tokens = (scan l.source).tokens := by
    simpa [close, rewind, scan] using ht
  refine ⟨ended.close, ?_, hs, ht', ?_, ?_, hl⟩
  · rw [tokenize, hr, ← ht']
  · simpa [close, rewind, scan] using he
  · simpa [close, rewind] using hc

theorem tokenize_of_scan_eq {t : Text} {s : Scan} (h : scan t = s) :
    ∃ ended, tokenize { source := t } = (.ok s.tokens, ended) ∧ ended.errors = s.errors := by
  obtain ⟨ended, ht, -, -, he, -⟩ := tokenize_eq { source := t }
  rw [h] at ht he
  exact ⟨ended, ht, he⟩

end Lexer

end ScriptLexer
