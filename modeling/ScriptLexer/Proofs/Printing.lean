import ScriptLexer.Proofs.Quotation
import ScriptLexer.Proofs.WrittenNumbers
import Mathlib.Data.List.Nodup

/-! # Printed tokens can be told apart

A printed token can be taken apart from the left: the name of its kind has no parenthesis and no
comma, quoted text says where it ends, and a written number has neither a quote nor a comma. All of
it is printable, whatever characters the lexeme and the literal hold. -/

namespace ScriptLexer

/-- Literals that cannot be told apart: none, the same text, or numbers with the same text. -/
inductive Literal.Alike : Option Literal → Option Literal → Prop
  | none : Alike none none
  | text (t : Text) : Alike (some (.text t)) (some (.text t))
  | number {u v : Binary64} : u.written = v.written → Alike (some (.number u)) (some (.number v))

/-! ## Taking printed text apart -/

theorem append_cons_inj {s t r r' : Text} {x : Char} (hs : x ∉ s) (ht : x ∉ t)
    (h : s ++ x :: r = t ++ x :: r') : s = t ∧ r = r' := by
  have hx : ∀ r : Text, Text.StopsRun (fun c => decide (c ≠ x)) (x :: r) := by
    intro r
    simp [Text.stopsRun_cons]
  have hst := congrArg (List.takeWhile (· ≠ x)) h
  rw [Text.takeWhile_append_of_stopsRun (Text.ne_of_not_mem hs) (hx r),
    Text.takeWhile_append_of_stopsRun (Text.ne_of_not_mem ht) (hx r')] at hst
  subst hst
  exact ⟨rfl, (List.cons.inj (List.append_cancel_left h)).2⟩

theorem append_comma_inj {s t r r' : Text} (hs : ',' ∉ s) (ht : ',' ∉ t)
    (h : s ++ (", ".toList ++ r) = t ++ (", ".toList ++ r')) : s = t ∧ r = r' := by
  obtain ⟨hst, hr⟩ := append_cons_inj hs ht h
  exact ⟨hst, (List.cons.inj hr).2⟩

theorem TokenKind.name_inj {k l : TokenKind} (h : k.name = l.name) : k = l := by
  have hn : (all.map name).Nodup := by decide
  exact List.inj_on_of_nodup_map hn k.mem_all l.mem_all h

theorem TokenKind.plain_of_mem_name (k : TokenKind) :
    ∀ c ∈ k.name, Text.isPrintable c = true ∧ c ≠ '(' ∧ c ≠ ',' := by
  have h : ∀ k ∈ all,
      k.name.all (fun c => Text.isPrintable c = true ∧ c ≠ '(' ∧ c ≠ ',') = true := by decide
  exact Text.forall_mem_of_all (h k k.mem_all)

theorem plain_of_mem_valueCharacters : ∀ c ∈ valueCharacters,
    Text.isPrintable c = true ∧ ¬ Text.IsQuoteMark c ∧ c ≠ ',' ∧ c ≠ 'N' ∧ c ≠ ']' := by
  intro c hc
  have h : ∀ c ∈ valueCharacters, Text.isPrintable c = true ∧ c ≠ '\x27' ∧ c ≠ '\x22' ∧ c ≠ ',' ∧
      c ≠ 'N' ∧ c ≠ ']' := Text.forall_mem_of_all (by decide)
  obtain ⟨hp, h₁, h₂, h₃⟩ := h c hc
  exact ⟨hp, fun hq => hq.elim h₁ h₂, h₃⟩

/-! ## Literals -/

/-- A written number is never taken for the beginning of a quoted text. -/
theorem number_append_ne_quoted {v : Binary64} {t r r' : Text}
    (hr : ∀ c ∈ r.head?, ¬ Text.IsQuoteMark c) : v.written ++ r ≠ Text.quoted t ++ r' := by
  intro h
  have hm := Text.isQuoteMark_quoteMark t
  have hv := v.mem_written
  cases hw : v.written with
  | nil =>
    rw [hw] at h
    exact hr (Text.quoteMark t) (by simp [show r = _ from h, Text.quoted]) hm
  | cons c w =>
    rw [hw] at h hv
    obtain ⟨rfl, -⟩ := List.cons.inj h
    exact (plain_of_mem_valueCharacters _ (hv _ List.mem_cons_self)).2.1 hm

theorem Literal.alike_iff {a b : Option Literal} :
    Alike a b ↔ a.map written = b.map written := by
  have hne : ∀ (v : Binary64) (t : Text), v.written ≠ Text.quoted t := by
    intro v t h
    exact @number_append_ne_quoted v t [] [] (by simp) (by simpa using h)
  constructor
  · rintro (_ | _ | h)
    · rfl
    · rfl
    · exact congrArg some h
  · intro h
    match a, b with
    | none, none => exact .none
    | none, some _ => cases h
    | some _, none => cases h
    | some (.number u), some (.number v) => exact .number (Option.some.inj h)
    | some (.text s), some (.text t) =>
      rw [Text.quoted_inj.1 (Option.some.inj h)]
      exact .text t
    | some (.number v), some (.text t) => exact absurd (Option.some.inj h) (hne v t)
    | some (.text t), some (.number v) => exact absurd (Option.some.inj h).symm (hne v t)

theorem Literal.writtenOption_eq (a : Option Literal) :
    writtenOption a = (a.map written).getD "None".toList := by
  cases a <;> rfl

/-- The place of a literal can be read up to the comma behind it. -/
theorem Literal.writtenOption_append_inj {a b : Option Literal} {r r' : Text}
    (h : writtenOption a ++ (", ".toList ++ r) = writtenOption b ++ (", ".toList ++ r')) :
    Alike a b ∧ r = r' := by
  have hc : ∀ v : Binary64, ',' ∉ v.written := fun v hv =>
    (plain_of_mem_valueCharacters _ (v.mem_written _ hv)).2.2.1 rfl
  have hq : ∀ r : Text, ∀ c ∈ (", ".toList ++ r).head?, ¬ Text.IsQuoteMark c := by
    intro r c hc
    obtain rfl : ',' = c := by simpa using hc
    rintro (h | h) <;> cases h
  have hnv : ∀ (v : Binary64) (r r' : Text),
      "None".toList ++ (", ".toList ++ r) ≠ v.written ++ (", ".toList ++ r') := by
    intro v r r' h
    have hv := v.mem_written 'N' (by rw [← (append_comma_inj (by decide) (hc v) h).1]; decide)
    exact (plain_of_mem_valueCharacters _ hv).2.2.2.1 rfl
  have hnt : ∀ t r r' : Text, "None".toList ++ r ≠ Text.quoted t ++ r' := by
    intro t r r' h
    have hm := Text.isQuoteMark_quoteMark t
    rw [← (List.cons.inj h).1] at hm
    rcases hm with h | h <;> cases h
  match a, b with
  | none, none => exact ⟨.none, (append_comma_inj (by decide) (by decide) h).2⟩
  | none, some (.number v) => exact absurd h (hnv v r r')
  | some (.number v), none => exact absurd h.symm (hnv v r' r)
  | none, some (.text t) => exact absurd h (hnt t _ _)
  | some (.text t), none => exact absurd h.symm (hnt t _ _)
  | some (.number u), some (.number v) =>
    obtain ⟨hv, hr⟩ := append_comma_inj (hc u) (hc v) h
    exact ⟨.number hv, hr⟩
  | some (.text s), some (.text t) =>
    obtain ⟨rfl, hr⟩ := Text.quoted_append_inj.1 h
    exact ⟨.text s, List.append_cancel_left hr⟩
  | some (.number u), some (.text t) => exact absurd h (number_append_ne_quoted (hq r))
  | some (.text s), some (.number v) => exact absurd h.symm (number_append_ne_quoted (hq r'))

/-! ## Tokens -/

namespace Token

theorem written_eq (t : Token) : t.written = t.kind.name ++ '(' :: (Text.quoted t.lexeme ++
    ((t.literal.map Literal.written).elim [] (" -> ".toList ++ ·) ++ [')'])) := by
  unfold written
  cases t.literal <;> simp

theorem writtenInFull_eq (t : Token) : t.writtenInFull =
    "Token(".toList ++ (t.kind.name ++ (", ".toList ++ (Text.quoted t.lexeme ++ (", ".toList ++
      (Literal.writtenOption t.literal ++ (", ".toList ++ (Text.ofInt t.line ++ [')']))))))) := by
  unfold writtenInFull
  simp only [List.append_assoc]

variable {a b : Token}

theorem written_inj : a.written = b.written ↔
    a.kind = b.kind ∧ a.lexeme = b.lexeme ∧ Literal.Alike a.literal b.literal := by
  have hp : ∀ k : TokenKind, '(' ∉ k.name := fun k h => (k.plain_of_mem_name _ h).2.1 rfl
  rw [written_eq, written_eq, Literal.alike_iff]
  constructor
  · intro h
    obtain ⟨hk, h⟩ := append_cons_inj (hp a.kind) (hp b.kind) h
    obtain ⟨hl, h⟩ := Text.quoted_append_inj.1 h
    refine ⟨TokenKind.name_inj hk, hl, ?_⟩
    have hv := List.append_cancel_right h
    -- What is written for a literal starts with an arrow, so it cannot be missing.
    cases ha : a.literal.map Literal.written <;> cases hb : b.literal.map Literal.written <;>
      simp [ha, hb] at hv ⊢
    exact hv
  · rintro ⟨hk, hl, hv⟩
    rw [hk, hl, hv]

theorem writtenInFull_inj : a.writtenInFull = b.writtenInFull ↔
    a.kind = b.kind ∧ a.lexeme = b.lexeme ∧ Literal.Alike a.literal b.literal ∧
      a.line = b.line := by
  have hc : ∀ k : TokenKind, ',' ∉ k.name := fun k h => (k.plain_of_mem_name _ h).2.2 rfl
  rw [writtenInFull_eq, writtenInFull_eq]
  constructor
  · intro h
    obtain ⟨hk, h⟩ := append_comma_inj (hc a.kind) (hc b.kind) (List.append_cancel_left h)
    obtain ⟨hl, h⟩ := Text.quoted_append_inj.1 h
    obtain ⟨hv, h⟩ := Literal.writtenOption_append_inj (List.append_cancel_left h)
    exact ⟨TokenKind.name_inj hk, hl, hv, Text.ofInt_inj.1 (List.append_cancel_right h)⟩
  · rintro ⟨hk, hl, hv, hn⟩
    rw [hk, hl, hn, Literal.writtenOption_eq, Literal.writtenOption_eq, Literal.alike_iff.1 hv]

end Token

/-! ## On one line -/

theorem Literal.isPrintable_of_mem {l : Literal} :
    ∀ c ∈ l.written, Text.isPrintable c = true := by
  cases l with
  | number v => exact fun c h => (plain_of_mem_valueCharacters c (v.mem_written c h)).1
  | text t => exact fun c h => Text.isPrintable_of_mem_quoted h

theorem isPrintable_of_mem_ofInt {n : Int} :
    ∀ c ∈ Text.ofInt n, Text.isPrintable c = true :=
  fun c h => (plain_of_mem_valueCharacters c (mem_valueCharacters_of_mem_ofInt c h)).1

theorem Token.isPrintable_of_mem_written (t : Token) :
    ∀ c ∈ t.written, Text.isPrintable c = true := by
  have hk := fun c hc => (t.kind.plain_of_mem_name c hc).1
  rw [written_eq]
  refine List.forall_mem_append.2 ⟨hk, List.forall_mem_cons.2 ⟨by decide, ?_⟩⟩
  refine List.forall_mem_append.2 ⟨fun c hc => Text.isPrintable_of_mem_quoted hc, ?_⟩
  refine List.forall_mem_append.2 ⟨?_, Text.forall_mem_of_all (by decide)⟩
  cases t.literal with
  | none => simp
  | some l =>
    exact List.forall_mem_append.2 ⟨Text.forall_mem_of_all (by decide), l.isPrintable_of_mem⟩

theorem Token.isPrintable_of_mem_writtenInFull (t : Token) :
    ∀ c ∈ t.writtenInFull, Text.isPrintable c = true := by
  have hk := fun c hc => (t.kind.plain_of_mem_name c hc).1
  have hcomma : ∀ c ∈ ", ".toList, Text.isPrintable c = true := Text.forall_mem_of_all (by decide)
  rw [writtenInFull_eq]
  refine List.forall_mem_append.2 ⟨Text.forall_mem_of_all (by decide),
    List.forall_mem_append.2 ⟨hk, ?_⟩⟩
  refine List.forall_mem_append.2 ⟨hcomma, List.forall_mem_append.2
    ⟨fun c hc => Text.isPrintable_of_mem_quoted hc, ?_⟩⟩
  refine List.forall_mem_append.2 ⟨hcomma, List.forall_mem_append.2 ⟨?_, ?_⟩⟩
  · cases t.literal with
    | none => exact Text.forall_mem_of_all (by decide)
    | some l => exact l.isPrintable_of_mem
  · exact List.forall_mem_append.2 ⟨hcomma, List.forall_mem_append.2
      ⟨isPrintable_of_mem_ofInt, Text.forall_mem_of_all (by decide)⟩⟩

end ScriptLexer
