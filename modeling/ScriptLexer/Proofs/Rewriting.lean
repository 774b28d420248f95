import ScriptLexer.Proofs.LineEnds

/-! # Writing a text anew, piece by piece

There are changes of a text that leave what it scans to as it is, or change it in a way that can be
told for every token and every error by itself. They write each piece of the text anew, as one piece,
as some blanks or as nothing. Whether the new pieces are the cut of the new text is decided where two
of them meet: what comes to stand behind a piece has to end it if what stood there did. With that,
a change owes something for single pieces only, and induction along the cut does the rest. -/

namespace ScriptLexer

/-! ## What stands behind a piece -/

/-- Every piece that may stand before `old` may stand before `new` as well. -/
def Text.StandsFor (new old : Text) : Prop :=
  ∀ p : Piece, p.EndsBefore old → p.EndsBefore new

namespace Text

variable {new old : Text} {b c : Char}

theorem StandsFor.refl (t : Text) : StandsFor t t :=
  fun _ h => h

theorem StandsFor.trans {t : Text} (h : StandsFor new t) (h' : StandsFor t old) :
    StandsFor new old :=
  fun p hp => h p (h' p hp)

theorem standsFor_nil (old : Text) : StandsFor [] old := by
  intro p _
  cases p with
  | symbol s => cases s <;> simp [Piece.EndsBefore, Symbol.EndsBefore]
  | number whole fraction =>
    have hd : ¬ StartsFraction [] := fun ⟨_, _, h, _⟩ => nomatch h
    cases fraction with
    | none => exact ⟨stopsRun_nil, hd⟩
    | some f => exact stopsRun_nil
  | word => exact stopsRun_nil
  | _ => simp [Piece.EndsBefore]

/-- A character that no number, word or operator goes on with, nor a comment starts with, ends every
piece; only a line comment needs a line feed. -/
theorem standsFor_of_plain (hb : b ∉ marks ∧ isDigit b = false ∧ isLetter b = false)
    (hl : c = '\n' → b = '\n') : StandsFor (b :: new) (c :: old) := by
  obtain ⟨hm, hd, hw⟩ := hb
  have hne : ∀ d ∈ marks, (b :: new).head? ≠ some d := by
    intro d hdm he
    exact hm (Option.some.inj he ▸ hdm)
  intro p hp
  cases p with
  | symbol s =>
    cases s
    case bang | equal | greater | less => exact hne '=' (by decide)
    case slash => exact ⟨hne '/' (by decide), hne '*' (by decide)⟩
    all_goals trivial
  | lineComment body =>
    intro d hd
    obtain rfl : b = d := Option.some.inj hd
    exact hl (hp c rfl)
  | number whole fraction =>
    have hn : StopsRun isDigit (b :: new) := stopsRun_cons.2 hd
    cases fraction with
    | none =>
      refine ⟨hn, ?_⟩
      rintro ⟨d, rest, he, -⟩
      exact hne '.' (by decide) (congrArg List.head? he)
    | some f => exact hn
  | word w => exact stopsRun_cons.2 (by rw [isWordCharacter, hd, hw]; rfl)
  | openComment | openString => cases hp
  | blank | blockComment | string | stray => trivial

/-- Behind the same first character it only matters whether a fraction starts. -/
theorem standsFor_of_head (h : StartsFraction (c :: new) → StartsFraction (c :: old)) :
    StandsFor (c :: new) (c :: old) := by
  intro p hp
  cases p with
  | symbol s => cases s <;> exact hp
  | number whole fraction =>
    cases fraction with
    | none => exact ⟨hp.1, fun hn => hp.2 (h hn)⟩
    | some f => exact hp
  | openComment | openString => cases hp
  | _ => exact hp

theorem standsFor_cons_of_ne (hc : c ≠ '.') : StandsFor (c :: new) (c :: old) := by
  refine standsFor_of_head ?_
  rintro ⟨d, rest, he, -⟩
  exact absurd (List.cons.inj he).1 hc

theorem StandsFor.stopsRun (h : StandsFor new old) (hs : StopsRun isDigit old) :
    StopsRun isDigit new :=
  h (.number [] (some [])) hs

theorem StandsFor.cons (h : StandsFor new old) (c : Char) : StandsFor (c :: new) (c :: old) := by
  refine standsFor_of_head ?_
  rintro ⟨d, rest, he, hd⟩
  obtain ⟨rfl, rfl⟩ := List.cons.inj he
  by_contra hn
  have hs : StopsRun isDigit old := by
    intro e heo
    obtain ⟨r, rfl⟩ := List.head?_eq_some_iff.1 heo
    by_contra hde
    exact hn ⟨e, r, rfl, by simpa using hde⟩
  rw [stopsRun_cons.1 (h.stopsRun hs)] at hd
  cases hd

theorem StandsFor.append (h : StandsFor new old) (t : Text) : StandsFor (t ++ new) (t ++ old) := by
  induction t with
  | nil => exact h
  | cons c t ih => exact ih.cons c

/-- The end of a line ends everything that what is in front of it ends. -/
theorem standsFor_lineEnd (h : ∀ c ∈ old.head?, c = '\n') (t : Text) : StandsFor old (t ++ old) := by
  cases old with
  | nil => exact standsFor_nil _
  | cons c old =>
    obtain rfl : c = '\n' := h c rfl
    cases t with
    | nil => exact .refl _
    | cons d t => exact standsFor_of_plain (plain_of_isBlank rfl) fun _ => rfl

end Text

/-! ## Stretches of pieces -/

/-- What a change of a text does to the tokens and the errors found in it. It may take errors away,
and leaves the end of the text alone. -/
structure Effect where
  onToken : Token → Token := id
  onError : LexError → Option LexError := some
  onToken_endOfText : ∀ line, onToken (Token.endOfText line) = Token.endOfText line := by
    exact fun _ => rfl

/-- What is left of a scan. -/
def Scan.under (s : Scan) (e : Effect) : Scan where
  tokens := s.tokens.map e.onToken
  errors := s.errors.filterMap e.onError

/-- The pieces `ps` in front of `old` are written anew as `t`, which is made of the pieces `qs`. -/
structure Rewrites (e : Effect) (old : Text) (ps : List Piece) (t : Text) (qs : List Piece) :
    Prop where
  isCut : ∀ {new rs}, Text.StandsFor new old → IsCut new rs → IsCut (t ++ new) (qs ++ rs)
  standsFor : ∀ {new}, Text.StandsFor new old →
    Text.StandsFor (t ++ new) (ps.flatMap Piece.text ++ old)
  lineFeeds_eq : Text.lineFeeds t = Text.lineFeeds (ps.flatMap Piece.text)
  tokens_eq : ∀ {before before'}, Text.lineFeeds before' = Text.lineFeeds before →
    readTokens before' qs = (readTokens before ps).map e.onToken
  errors_eq : ∀ {before before'}, Text.lineFeeds before' = Text.lineFeeds before →
    readErrors before' qs = (readErrors before ps).filterMap e.onError

section

variable {e : Effect} {old s t : Text} {ps ps' qs rs : List Piece} {p q : Piece}

theorem rewrites_nil (e : Effect) (old : Text) : Rewrites e old [] [] [] :=
  ⟨fun _ h => h, fun h => h, rfl, fun _ => rfl, fun _ => rfl⟩

theorem Rewrites.flatMap_text (h : Rewrites e old ps t qs) : qs.flatMap Piece.text = t := by
  have hc := h.isCut (Text.standsFor_nil old) .nil
  rw [List.append_nil, List.append_nil] at hc
  exact hc.flatMap_text

theorem Rewrites.append (h : Rewrites e (ps'.flatMap Piece.text ++ old) ps s qs)
    (h' : Rewrites e old ps' t rs) : Rewrites e old (ps ++ ps') (s ++ t) (qs ++ rs) := by
  -- Behind the first stretch the lines are as far as they were.
  have hl : ∀ {before before' : Text}, Text.lineFeeds before' = Text.lineFeeds before →
      Text.lineFeeds (before' ++ qs.flatMap Piece.text) =
        Text.lineFeeds (before ++ ps.flatMap Piece.text) := by
    intro before before' hb
    rw [h.flatMap_text, Text.lineFeeds_append, Text.lineFeeds_append, hb, h.lineFeeds_eq]
  constructor
  case isCut =>
    intro new xs hn hc
    rw [List.append_assoc, List.append_assoc]
    exact h.isCut (h'.standsFor hn) (h'.isCut hn hc)
  case standsFor =>
    intro new hn
    rw [List.append_assoc, List.flatMap_append, List.append_assoc]
    exact h.standsFor (h'.standsFor hn)
  case lineFeeds_eq =>
    rw [List.flatMap_append, Text.lineFeeds_append, Text.lineFeeds_append, h.lineFeeds_eq,
      h'.lineFeeds_eq]
  case tokens_eq =>
    intro before before' hb
    rw [readTokens_append_right, readTokens_append_right, List.map_append, h.tokens_eq hb,
      h'.tokens_eq (hl hb)]
  case errors_eq =>
    intro before before' hb
    rw [readErrors_append_right, readErrors_append_right, List.filterMap_append, h.errors_eq hb,
      h'.errors_eq (hl hb)]

/-! ## Single pieces -/

theorem readTokens_singleton (before : Text) (p : Piece) :
    readTokens before [p] = (p.token? (1 + Text.lineFeeds before)).toList := by
  rw [readTokens_cons]
  exact List.append_nil _

theorem readErrors_singleton (before : Text) (p : Piece) :
    readErrors before [p] = (p.error? (1 + Text.lineFeeds (before ++ p.text))).toList := by
  rw [readErrors_cons]
  exact List.append_nil _

theorem filterMap_toList {α β : Type} (f : α → Option β) (o : Option α) :
    o.toList.filterMap f = (o.bind f).toList := by
  cases o with
  | none => rfl
  | some a =>
    rw [Option.toList_some, filterMap_cons_toList]
    exact List.append_nil _

/-- One piece in the place of another. -/
theorem rewrites_piece (hw : q.WellFormed) (he : ∀ new, Text.StandsFor new old → q.EndsBefore new)
    (hs : ∀ new, Text.StandsFor new old → Text.StandsFor (q.text ++ new) (p.text ++ old))
    (hl : Text.lineFeeds q.text = Text.lineFeeds p.text)
    (ht : ∀ line, q.token? line = (p.token? line).map e.onToken)
    (hr : ∀ line, q.error? line = (p.error? line).bind e.onError) :
    Rewrites e old [p] q.text [q] := by
  constructor
  case isCut =>
    intro new rs hn hc
    exact .cons ⟨hw, he new hn⟩ hc
  case standsFor =>
    intro new hn
    simpa using hs new hn
  case lineFeeds_eq => simpa using hl
  case tokens_eq =>
    intro before before' hb
    rw [readTokens_singleton, readTokens_singleton, hb, ht]
    cases p.token? (1 + Text.lineFeeds before) <;> rfl
  case errors_eq =>
    intro before before' hb
    rw [readErrors_singleton, readErrors_singleton, filterMap_toList, ← hr, Text.lineFeeds_append,
      Text.lineFeeds_append, hb, hl]

/-- A piece that stays as it is. -/
theorem rewrites_kept (hf : p.Fits old) (ht : ∀ line, p.token? line = (p.token? line).map e.onToken)
    (hr : ∀ line, p.error? line = (p.error? line).bind e.onError) :
    Rewrites e old [p] p.text [p] :=
  rewrites_piece hf.wellFormed (fun _ hn => hn p hf.endsBefore) (fun _ hn => hn.append p.text) rfl
    ht hr

/-- Blanks in the place of a piece. -/
theorem rewrites_blanks (hb : ∀ c ∈ t, isBlank c = true)
    (hs : ∀ new, Text.StandsFor new old → Text.StandsFor (t ++ new) (p.text ++ old))
    (hl : Text.lineFeeds t = Text.lineFeeds p.text) (ht : p.isLexeme = false)
    (hr : ∀ line, (p.error? line).bind e.onError = none) :
    Rewrites e old [p] t (t.map .blank) := by
  have htp : ∀ q ∈ t.map Piece.blank, q.isLexeme = false := by simp [Piece.isLexeme]
  have hrp : ∀ q ∈ t.map Piece.blank, q.isFaulty = false := by simp [Piece.isFaulty]
  constructor
  case isCut =>
    intro new rs _ hc
    exact hc.blanks_append hb
  case standsFor =>
    intro new hn
    simpa using hs new hn
  case lineFeeds_eq => simpa using hl
  case tokens_eq =>
    intro before before' _
    rw [readTokens_eq_nil htp, readTokens_eq_nil (by simpa using ht)]
    rfl
  case errors_eq =>
    intro before before' _
    rw [readErrors_eq_nil hrp, readErrors_singleton, filterMap_toList, hr]
    rfl

/-! ## Bodies -/

/-- The piece with another body, if it is a string or a comment. -/
def Piece.mapBody (g : Text → Text) : Piece → Piece
  | lineComment body => .lineComment (g body)
  | blockComment body => .blockComment (g body)
  | openComment body => .openComment (g body)
  | string body => .string (g body)
  | openString body => .openString (g body)
  | p => p

/-- Bodies stay bodies: nothing that would end one comes into it, and its lines remain. -/
structure KeepsEnds (g : Text → Text) : Prop where
  lineFeeds_eq : ∀ body, Text.lineFeeds (g body) = Text.lineFeeds body
  quote_mem : ∀ body, '\x22' ∈ g body → '\x22' ∈ body
  commentEnd_infix : ∀ body, ['*', '/'] <:+: g body → ['*', '/'] <:+: body

section

variable {g : Text → Text}

theorem KeepsEnds.not_lineFeed_mem (hg : KeepsEnds g) {body : Text} (h : '\n' ∉ body) :
    '\n' ∉ g body := by
  have hl := hg.lineFeeds_eq body
  rw [Text.lineFeeds_eq_zero h] at hl
  exact List.count_eq_zero.1 hl

theorem Piece.WellFormed.mapBody (h : p.WellFormed) (hg : KeepsEnds g) :
    (p.mapBody g).WellFormed := by
  cases p with
  | lineComment body => exact hg.not_lineFeed_mem h
  | blockComment body =>
    exact closesOnce_iff.2 fun hi => closesOnce_iff.1 h (hg.commentEnd_infix body hi)
  | openComment body => exact fun hi => h (hg.commentEnd_infix body hi)
  | string body | openString body => exact fun hq => h (hg.quote_mem body hq)
  | _ => exact h

theorem Piece.lineFeeds_mapBody (hg : KeepsEnds g) (p : Piece) :
    Text.lineFeeds (p.mapBody g).text = Text.lineFeeds p.text := by
  have hl := hg.lineFeeds_eq
  cases p with
  | lineComment body | blockComment body | openComment body | string body | openString body =>
    simpa [Piece.mapBody, Piece.text, Text.lineFeeds] using hl body
  | _ => rfl

/-- A piece whose body alone is written anew. What follows a slash or a quote matters to no piece in
front of it. -/
theorem rewrites_mapBody (hg : KeepsEnds g) (hf : p.Fits old)
    (ht : ∀ line, (p.mapBody g).token? line = (p.token? line).map e.onToken)
    (hr : ∀ line, (p.mapBody g).error? line = (p.error? line).bind e.onError) :
    Rewrites e old [p] (p.mapBody g).text [p.mapBody g] := by
  refine rewrites_piece (hf.wellFormed.mapBody hg) ?_ ?_ (p.lineFeeds_mapBody hg) ht hr
  · intro new hn
    have he := hn p hf.endsBefore
    cases p <;> exact he
  · intro new hn
    cases p with
    | lineComment | blockComment | openComment | string | openString =>
      exact Text.standsFor_cons_of_ne (by decide)
    | _ => exact hn.append _

end

end

/-! ## Whole texts -/

/-- A way to write every piece anew, given the text behind it. -/
structure Rewriting where
  effect : Effect := {}
  write : Text → Piece → Text
  exists_rewrites : ∀ {p old}, p.Fits old → ∃ qs, Rewrites effect old [p] (write old p) qs

namespace Rewriting

variable (r : Rewriting)

/-- The text of pieces that are written anew. -/
def text : List Piece → Text
  | [] => []
  | p :: ps => r.write (ps.flatMap Piece.text) p ++ text ps

theorem exists_rewrites_text {t : Text} {ps : List Piece} (h : IsCut t ps) :
    ∃ qs, Rewrites r.effect [] ps (r.text ps) qs := by
  induction h with
  | nil => exact ⟨[], rewrites_nil _ _⟩
  | @cons p after ps hf hc ih =>
    obtain ⟨qs, hq⟩ := r.exists_rewrites hf
    obtain ⟨rs, hr⟩ := ih
    rw [← hc.flatMap_text, ← List.append_nil (ps.flatMap Piece.text)] at hq
    refine ⟨qs ++ rs, ?_⟩
    simpa [text] using hq.append hr

/-- A text whose pieces are written anew scans to what the change leaves of its scan. -/
theorem scan_text {t : Text} {ps : List Piece} (h : IsCut t ps) :
    scan (r.text ps) = (scan t).under r.effect := by
  obtain ⟨qs, hr⟩ := r.exists_rewrites_text h
  have hc := hr.isCut (.refl []) .nil
  have hl := hr.lineFeeds_eq
  rw [List.append_nil, List.append_nil] at hc
  rw [h.flatMap_text] at hl
  have ht : (scan (r.text ps)).tokens = (scan t).tokens.map r.effect.onToken := by
    rw [tokens_scan hc, tokens_scan h, List.map_append, hr.tokens_eq rfl, hl, List.map_singleton,
      r.effect.onToken_endOfText]
  have he : (scan (r.text ps)).errors = (scan t).errors.filterMap r.effect.onError := by
    rw [errors_scan hc, errors_scan h, hr.errors_eq rfl]
  rw [Scan.under, ← ht, ← he]

/-- Where the text behind a piece does not matter, the pieces are written one by one. -/
theorem text_eq_flatMap {f : Piece → Text} (h : ∀ old p, r.write old p = f p) (ps : List Piece) :
    r.text ps = ps.flatMap f := by
  induction ps with
  | nil => rfl
  | cons p ps ih => rw [text, h, ih, List.flatMap_cons]

end Rewriting

end ScriptLexer
