import ScriptLexer.Proofs.Readings
import ScriptLexer.Proofs.Sessions

/-! # Failed steps

A step that fails does so before it has read anything, at the end of the source, or with what it has
read; it has added no token then and recorded no error. So after a failure a session is as it was,
but for a cursor that has passed some of what came next, with its line feeds counted. A reader that
succeeds moves the cursor in the same way and adds one token at most. -/

namespace ScriptLexer

namespace Lexer

/-- `l'` is `l` with the cursor moved on over what came next, its line feeds counted, and perhaps with
other tokens. -/
structure Passed (l l' : Lexer) : Prop where
  source : l'.source = l.source
  start : l'.start = l.start
  startLine : l'.startLine = l.startLine
  errors : l'.errors = l.errors
  current_le : l.current ≤ l'.current
  line : l'.line = l.line + Text.lineFeeds ((l.source.take l'.current).drop l.current)

variable {l : Lexer} {t : Text}

theorem passed_consume (h : t <+: l.unread) : Passed l (l.consume t) := by
  refine ⟨rfl, rfl, rfl, rfl, Nat.le_add_right _ _, ?_⟩
  have ht : (l.source.take (l.current + t.length)).drop l.current = t := by
    rw [List.drop_take, Nat.add_sub_cancel_left]
    exact (List.prefix_iff_eq_take.1 h).symm
  show l.line + Text.lineFeeds t =
    l.line + Text.lineFeeds ((l.source.take (l.current + t.length)).drop l.current)
  rw [ht]

theorem Passed.push {l' : Lexer} (h : Passed l l') (kind : TokenKind) (literal : Option Literal) :
    Passed l (l'.push kind literal) :=
  ⟨h.source, h.start, h.startLine, h.errors, h.current_le, h.line⟩

end Lexer

namespace Session

/-- The steps that read on from the cursor, up to the end of a lexeme or a comment. -/
def Step.isReader : Step → Bool
  | .scanToken | .slash | .blockComment | .string | .number | .identifier => true
  | _ => false

variable {s : Session} {x : Step}

theorem exists_reads_of_isReader (h : x.isReader = true) :
    ∃ o, s.step x = s.after o ∧ s.lexer.Reads o := by
  cases x with
  | scanToken => exact ⟨_, rfl, s.lexer.reads_scanToken⟩
  | slash => exact ⟨_, rfl, s.lexer.reads_slash⟩
  | blockComment => exact ⟨_, rfl, s.lexer.reads_blockComment⟩
  | string => exact ⟨_, rfl, s.lexer.reads_string⟩
  | number => exact ⟨_, rfl, s.lexer.reads_number⟩
  | identifier => exact ⟨_, rfl, s.lexer.reads_identifier⟩
  | _ => cases h

/-- A failed step that does not read leaves the session as it was. -/
theorem step_eq_self_of_error {f : Lexer.Failure} (hx : x.isReader = false)
    (h : (s.step x).1 = .error f) : (s.step x).2 = s := by
  cases x with
  | tokenize =>
    obtain ⟨ended, ht, -⟩ := s.step_tokenize
    rw [ht] at h
    cases h
  | returned i | clearReturned i | addToken kind literal =>
    simp only [step] at h ⊢
    split at h
    · cases h
    · simp [*]
  | advance =>
    simp only [step, Lexer.advance] at h ⊢
    split at h
    · simp [*, update_lexer]
    · cases h
  | scanToken | slash | blockComment | string | number | identifier => cases hx
  | setSource | hasErrors | errors | begin | peek | peekNext | accept | isAtEnd => cases h

theorem lexer_after (o : Lexer.Outcome Unit) : (s.after o).2.lexer = o.2 :=
  lexer_update

/-- A lexer that has the tokens it had leaves all lists as they were. -/
theorem returned_update_of_tokens {l : Lexer} (h : l.tokens = s.lexer.tokens) :
    (s.update l).returned = s.returned := by
  have hw : s.heap.write s.own l.tokens = s.heap := by
    rw [h]
    exact Heap.write_read
  simp only [returned, update, hw]

/-- All that is left of a failed step is that the cursor has passed some of what came next. -/
theorem exists_consume_of_error {f : Lexer.Failure} (h : (s.step x).1 = .error f) :
    ∃ t, t <+: s.lexer.unread ∧ (s.step x).2 = s.update (s.lexer.consume t) := by
  cases hx : x.isReader with
  | false =>
    refine ⟨[], List.nil_prefix, ?_⟩
    rw [step_eq_self_of_error hx h]
    exact update_lexer.symm
  | true =>
    obtain ⟨o, ho, hr⟩ := exists_reads_of_isReader (s := s) hx
    rw [ho] at h ⊢
    cases hr with
    | skip ht => cases h
    | add kind literal ht => cases h
    | fail g ht => exact ⟨_, ht, rfl⟩

/-- A failing step is contained, whatever led to the session that it is made on: tokens, errors, the
start of the lexeme and the returned lists are as before, the cursor has not gone back, and its line
has grown by the line feeds it has passed. A reader that succeeds adds at most one token, for the
lexeme that now ends at the cursor, on the line where that lexeme starts, and moves the cursor in
the same way. It leaves the returned lists alone where the lexer's is none of them, which is so after
any steps. -/
theorem failing_step_is_contained (s : Session) (x : Step) :
    (∀ f, (s.step x).1 = .error f →
      s.lexer.Passed (s.step x).2.lexer ∧
        (s.step x).2.lexer.tokens = s.lexer.tokens ∧ (s.step x).2.returned = s.returned) ∧
    (x.isReader = true → ∀ a, (s.step x).1 = .ok a →
      s.lexer.Passed (s.step x).2.lexer ∧
        (s.own ∉ s.results → (s.step x).2.returned = s.returned) ∧
        ((s.step x).2.lexer.tokens = s.lexer.tokens ∨ ∃ kind literal,
          (s.step x).2.lexer.tokens = s.lexer.tokens ++
            [⟨kind, (s.lexer.source.take (s.step x).2.lexer.current).drop s.lexer.start, literal,
              s.lexer.startLine⟩])) ∧
    ∀ source before, s = (ofSource source).run before → s.own ∉ s.results := by
  refine ⟨?_, ?_, ?_⟩
  · intro f hf
    obtain ⟨t, ht, hn⟩ := exists_consume_of_error hf
    rw [hn, lexer_update]
    exact ⟨Lexer.passed_consume ht, rfl, returned_update_of_tokens rfl⟩
  · intro hx a ha
    obtain ⟨o, ho, hr⟩ := exists_reads_of_isReader (s := s) hx
    rw [ho] at ha ⊢
    rw [lexer_after]
    cases hr with
    | skip ht => exact ⟨Lexer.passed_consume ht, returned_update, .inl rfl⟩
    | add kind literal ht =>
      exact ⟨(Lexer.passed_consume ht).push kind literal, returned_update,
        .inr ⟨kind, literal, rfl⟩⟩
    | fail f ht => cases ha
  · rintro source before rfl
    exact ((isApart_ofSource source).run before).own_not_mem

/-- A number is asked for in the middle of a word, where what the lexeme then comes to is no number,
and a string that is not closed fails at the end of the source, two lines further on. Each leaves
the token that was added before them, by a reader that succeeds, the only one. -/
theorem failing_number_and_string_are_contained :
    let source := ['+', 'a', '1', '\n', 'b', '\n']
    let symbol := (ofSource source).run [.begin]
    let number := (ofSource source).run [.begin, .scanToken, .begin, .advance]
    let string := (ofSource source).run [.begin, .scanToken, .begin, .advance, .number]
    ((symbol.step .scanToken).1 = .ok .done ∧ symbol.lexer.Passed (symbol.step .scanToken).2.lexer) ∧
    ((number.step .number).1 = .error (.notANumber ['a', '1']) ∧
      number.lexer.Passed (number.step .number).2.lexer ∧
      (number.step .number).2.lexer.tokens = [⟨.symbol .plus, ['+'], none, 1⟩]) ∧
    ((string.step .string).1 = .error (.lexical (LexError.unterminatedString 3)) ∧
      string.lexer.Passed (string.step .string).2.lexer ∧
      (string.step .string).2.lexer.tokens = [⟨.symbol .plus, ['+'], none, 1⟩]) := by
  intro source symbol number string
  have ha : (symbol.step .scanToken).1 = .ok .done := by decide +kernel
  have hn : (number.step .number).1 = .error (.notANumber ['a', '1']) := by decide +kernel
  have hs : (string.step .string).1 = .error (.lexical (LexError.unterminatedString 3)) := by
    decide +kernel
  have htn : number.lexer.tokens = [⟨.symbol .plus, ['+'], none, 1⟩] := by decide +kernel
  have hts : string.lexer.tokens = [⟨.symbol .plus, ['+'], none, 1⟩] := by decide +kernel
  obtain ⟨hpa, -⟩ := (failing_step_is_contained symbol .scanToken).2.1 rfl _ ha
  obtain ⟨hpn, hn', -⟩ := (failing_step_is_contained number .number).1 _ hn
  obtain ⟨hps, hs', -⟩ := (failing_step_is_contained string .string).1 _ hs
  exact ⟨⟨ha, hpa⟩, ⟨hn, hpn, hn'.trans htn⟩, hs, hps, hs'.trans hts⟩

end Session

end ScriptLexer
