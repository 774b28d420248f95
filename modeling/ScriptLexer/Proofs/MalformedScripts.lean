import ScriptLexer.Proofs.Lines
import ScriptLexer.Proofs.MalformedSequences
import ScriptLexer.Proofs.Modes

/-! # Scripts with malformed bytes

A malformed sequence in a file becomes a replacement character, and what comes of that depends on
where it stands. In code nothing starts with it, so it is reported on its line. In a string it is one
more character of the string, in a comment it is passed over, and behind an opening that nothing
closes it is all the same. So malformed bytes surface as far as they stand in code, and a file that
has them nowhere else but in strings and comments may be run without a word about them. -/

namespace ScriptLexer

namespace Mode

/-- The modes in which a character is looked at for what it could start. -/
def isInCode : Mode → Bool
  | code | slash => true
  | _ => false

variable {m m' : Mode} {s t : Text} {c : Char}

theorem mem_trace_iff :
    (m', c) ∈ m.trace t ↔ ∃ before behind, t = before ++ c :: behind ∧ m.after before = m' := by
  induction t generalizing m with
  | nil => simp [trace]
  | cons d t ih =>
    rw [trace, List.mem_cons, ih]
    constructor
    · rintro (h | ⟨before, behind, rfl, rfl⟩)
      · obtain ⟨rfl, rfl⟩ := Prod.mk.inj h
        exact ⟨[], t, rfl, rfl⟩
      · exact ⟨d :: before, behind, rfl, rfl⟩
    · rintro ⟨before, behind, ht, rfl⟩
      cases before with
      | nil =>
        obtain ⟨rfl, rfl⟩ := List.cons.inj ht
        exact .inl rfl
      | cons e before =>
        obtain ⟨rfl, rfl⟩ := List.cons.inj ht
        exact .inr ⟨before, behind, rfl, rfl⟩

/-- Strays are the characters that start nothing and stand in code. -/
theorem mem_strays_iff :
    c ∈ m.strays t ↔ IsStray c ∧
      ∃ before behind, t = before ++ c :: behind ∧ (m.after before).isInCode = true := by
  have hcode : ∀ m : Mode, m = code ∨ m = slash ↔ m.isInCode = true := by
    intro m
    cases m <;> decide
  constructor
  · intro h
    obtain ⟨⟨m', d⟩, hd, rfl⟩ := List.mem_map.1 h
    obtain ⟨ht, hm⟩ := List.mem_filter.1 hd
    obtain ⟨hm, hs⟩ := of_decide_eq_true hm
    obtain ⟨before, behind, hb, rfl⟩ := mem_trace_iff.1 ht
    exact ⟨hs, before, behind, hb, (hcode _).1 hm⟩
  · rintro ⟨hs, before, behind, hb, hm⟩
    have ht : (m.after before, c) ∈ m.trace t := mem_trace_iff.2 ⟨before, behind, hb, rfl⟩
    exact List.mem_map.2 ⟨_, List.mem_filter.2 ⟨ht, decide_eq_true ⟨(hcode _).2 hm, hs⟩⟩, rfl⟩

/-- What an idle reader takes for code, one in code takes for code too. -/
theorem Idle.isInCode_after (h : m.Idle (s ++ t)) (hs : (m.after s).isInCode = true) :
    (code.after s).isInCode = true := by
  cases s with
  | nil => rfl
  | cons c s =>
    rw [after, List.foldl_cons, h.next_eq] at hs
    exact hs

end Mode

/-! ## Strays at their places -/

section

variable {p : Piece} {ps : List Piece} {c : Char} {t u v after : Text}

theorem Piece.isFaulty_eq (p : Piece) : p.isFaulty = (p.stray?.isSome || p.unclosed?.isSome) := by
  cases p <;> rfl

theorem Piece.eq_of_stray? (h : p.stray? = some c) : p = .stray c := by
  cases p <;> cases h
  rfl

/-- A stray that stands in code is a piece by itself. -/
theorem Piece.Fits.eq_stray (h : p.Fits after) (ht : p.text = u ++ c :: v) (hs : IsStray c)
    (hu : (Mode.code.after u).isInCode = true) : p = .stray c ∧ u = [] := by
  have hc : c ∈ Mode.code.strays p.text := Mode.mem_strays_iff.2 ⟨hs, u, v, ht, hu⟩
  cases hp : p.unclosed? with
  | none =>
    obtain ⟨m, hr, -⟩ := h.reads hp
    rw [hr.strays_eq, Option.mem_toList] at hc
    obtain rfl := Piece.eq_of_stray? hc
    have hl := congrArg List.length ht
    simp only [Piece.text, List.length_append, List.length_cons, List.length_nil] at hl
    exact ⟨rfl, List.eq_nil_of_length_eq_zero (by omega)⟩
  | some f =>
    obtain ⟨m, hr, -⟩ := h.wellFormed.reads_unclosed hp
    rw [hr.strays_eq] at hc
    cases hc

/-- Behind a piece one is in code where one is when reading starts there. -/
theorem Piece.Fits.isInCode_behind (h : p.Fits (u ++ c :: v))
    (hu : (Mode.code.after (p.text ++ u)).isInCode = true) :
    (Mode.code.after u).isInCode = true := by
  cases hp : p.unclosed? with
  | none =>
    obtain ⟨m, hr, hi⟩ := h.reads hp
    refine hi.isInCode_after ?_
    rw [← hr.after_eq]
    simpa [Mode.after] using hu
  | some f =>
    have hn := h.eq_nil_of_unclosed? hp
    simp at hn

/-- A character stands within the first of two parts or behind it. -/
theorem Text.append_eq_append_cons {s t u v : Text} {c : Char} (h : s ++ t = u ++ c :: v) :
    (∃ w, s = u ++ c :: w) ∨ ∃ w, u = s ++ w ∧ t = w ++ c :: v := by
  rcases List.append_eq_append_iff.1 h with ⟨w, hu, ht⟩ | ⟨w, hs, hw⟩
  · exact .inr ⟨w, hu, ht⟩
  · cases w with
    | nil => exact .inr ⟨[], by simpa using hs.symm, hw.symm⟩
    | cons d w =>
      obtain ⟨rfl, -⟩ := List.cons.inj hw
      exact .inl ⟨w, hs⟩

/-- A character that starts nothing and stands in code is a piece of the cut. -/
theorem IsCut.stray_mem_placed (h : IsCut t ps) (ht : t = u ++ c :: v) (hs : IsStray c)
    (hu : (Mode.code.after u).isInCode = true) (before : Text) :
    ⟨before ++ u, .stray c⟩ ∈ placed before ps := by
  induction h generalizing before u with
  | nil => simp at ht
  | @cons p after ps hf _ ih =>
    rw [placed]
    rcases Text.append_eq_append_cons ht with ⟨w, hw⟩ | ⟨w, rfl, rfl⟩
    · obtain ⟨rfl, rfl⟩ := hf.eq_stray hw hs hu
      rw [List.append_nil]
      exact List.mem_cons_self
    · refine List.mem_cons_of_mem _ ?_
      rw [← List.append_assoc]
      exact ih rfl (hf.isInCode_behind hu) _

/-- It is reported on its line. -/
theorem unexpectedCharacter_mem_errors (hs : IsStray c)
    (hu : (Mode.code.after u).isInCode = true) (v : Text) :
    LexError.unexpectedCharacter c (1 + Text.lineFeeds u : Nat) ∈ (scan (u ++ c :: v)).errors := by
  have hc := isCut_cut (u ++ c :: v)
  have ha := hc.stray_mem_placed rfl hs hu []
  have he := faultIn_of_error? hc ha rfl
  rw [errors_scan hc]
  exact List.mem_filterMap.2 ⟨_, ha, congrArg some he⟩

theorem exists_found?_iff {source : Text} :
    (∃ e ∈ (scan source).errors, e.found? = some [c]) ↔ c ∈ Mode.code.strays source := by
  have hc := isCut_cut source
  have hf : (scan source).errors.filterMap LexError.found? =
      (Mode.code.strays source).map fun c => [c] := by
    rw [errors_scan hc, filterMap_found?_readErrors, hc.reads.2.1]
  rw [← List.mem_filterMap, hf]
  simp

/-- A text has no errors exactly if no stray stands in code and nothing is left open. -/
theorem errors_eq_nil_iff {source : Text} :
    (scan source).errors = [] ↔
      Mode.code.strays source = [] ∧ (Mode.code.after source).fault? = none := by
  have hc := isCut_cut source
  obtain ⟨-, hs, hf⟩ := hc.reads
  constructor
  · intro h
    have hf' := filterMap_unclosed?_scan source
    have hs' := filterMap_found?_readErrors [] (cut source)
    rw [← errors_scan hc, h, ← hs] at hs'
    rw [h] at hf'
    exact ⟨List.map_eq_nil_iff.1 hs'.symm, by simpa using hf'.symm⟩
  · rintro ⟨hs', hf'⟩
    rw [hs] at hs'
    rw [hf'] at hf
    rw [errors_scan hc]
    refine readErrors_eq_nil fun p hp => ?_
    rw [p.isFaulty_eq, List.filterMap_eq_nil_iff.1 hs' p hp,
      List.filterMap_eq_nil_iff.1 hf.symm p hp]
    rfl

end

/-! ## Sequences at their places -/

namespace Utf8

variable {qs : List Sequence} {c : Char}

/-- A character of the text that sequences become stands in code where one of them does. -/
theorem exists_inCode_iff :
    (∃ before q behind, qs = before ++ q :: behind ∧ q.char = c ∧
        (Mode.code.after (text before)).isInCode = true) ↔
      ∃ u v, text qs = u ++ c :: v ∧ (Mode.code.after u).isInCode = true := by
  constructor
  · rintro ⟨before, q, behind, rfl, rfl, h⟩
    exact ⟨text before, text behind, by simp [text], h⟩
  · rintro ⟨u, v, ht, h⟩
    obtain ⟨before, rest, rfl, rfl, hr⟩ := List.map_eq_append_iff.1 ht
    obtain ⟨q, behind, rfl, hq, -⟩ := List.map_eq_cons_iff.1 hr
    exact ⟨before, q, behind, rfl, hq, h⟩

end Utf8

theorem isStray_replacement : IsStray replacement := by
  decide

section

variable {files : FileSystem} {path : Text} {choice : EncodingChoice} {codecs : Codecs}
  {bytes : Bytes}

/-- A readable file that is no UTF-8 is scanned like any other. Its bytes are read in one way only, and
some of them are malformed. Every malformed sequence that stands in code is reported on its line. That
a replacement character is reported at all, with the status that says so, comes to this: one of the
sequences that become replacement characters stands in code. And nothing is reported exactly if no
stray does and nothing is left open. -/
theorem malformed_bytes_surface_in_code (hf : IsReadable files path bytes) (hc : choice.IsUtf8 codecs)
    (hm : ¬ Utf8.IsWellFormed bytes) :
    ∃ qs, Utf8.IsReading bytes qs ∧ (∀ qs', Utf8.IsReading bytes qs' → qs' = qs) ∧
      (∃ bad, .malformed bad ∈ qs) ∧
      ∃ s, scanFile files path choice codecs = .ok s ∧
        (∀ logs command, (runFile logs command files path choice codecs).2 = .ok s.status) ∧
        (∀ before bad behind, qs = before ++ .malformed bad :: behind →
          (Mode.code.after (Utf8.text before)).isInCode = true →
            LexError.unexpectedCharacter replacement
              (1 + Text.lineFeeds (Utf8.text before) : Nat) ∈ s.errors) ∧
        ((∃ e ∈ s.errors, e.found? = some [replacement]) ∧ s.status = .dataError ↔
          ∃ before q behind, qs = before ++ q :: behind ∧ q.char = replacement ∧
            (Mode.code.after (Utf8.text before)).isInCode = true) ∧
        (s.status = .success ↔ Mode.code.strays (Utf8.text qs) = [] ∧
          (Mode.code.after (Utf8.text qs)).fault? = none) := by
  obtain ⟨qs, hr, hd⟩ := Utf8.exists_isReading bytes
  have hs : scanFile files path choice codecs = .ok (scan (Utf8.text qs)) := by
    rw [scanFile_utf8 hf hc, hd]
  have hbad : ∃ bad, .malformed bad ∈ qs := by
    by_contra hn
    exact hm (hr.isWellFormed_iff.2 fun bad hb => hn ⟨bad, hb⟩)
  refine ⟨qs, hr, fun qs' hr' => hr'.eq hr, hbad, _, hs, fun logs command => ?_, ?_, ?_, ?_⟩
  · rw [runFile_utf8 hf hc, hd]
  · rintro before bad behind rfl hu
    rw [Utf8.text, List.map_append]
    exact unexpectedCharacter_mem_errors isStray_replacement hu (Utf8.text behind)
  · rw [Utf8.exists_inCode_iff, exists_found?_iff, Mode.mem_strays_iff,
      and_iff_right isStray_replacement]
    -- With an error there is the status for it.
    refine and_iff_left_of_imp fun h => ?_
    obtain ⟨e, he, -⟩ := exists_found?_iff.2 (Mode.mem_strays_iff.2 ⟨isStray_replacement, h⟩)
    rw [Scan.status_eq, if_neg (List.ne_nil_of_mem he)]
  · rw [← errors_eq_nil_iff, Scan.status_eq]
    split
    · next h => exact iff_of_true rfl h
    · next h => exact iff_of_false (by decide) h

/-- A sequence that breaks off in a string, and a byte in code that nothing begins with. -/
theorem malformed_byte_behind_string_surfaces :
    let bytes := [0x22, 0xE2, 0x82, 0x22, 0xFF]
    let files := (FileTree.ofEntries [(['a'], .file bytes)]).toFileSystem
    IsReadable files ['a'] bytes ∧ ¬ Utf8.IsWellFormed bytes ∧
      ∃ s, scanFile files ['a'] (.named "utf-8".toList) = .ok s ∧
        (∃ e ∈ s.errors, e.found? = some [replacement]) ∧
        ∀ logs command,
          (runFile logs command files ['a'] (.named "utf-8".toList)).2 = .ok .dataError := by
  intro bytes files
  have hf : IsReadable files ['a'] bytes := by
    unfold IsReadable
    decide +kernel
  have hm : ¬ Utf8.IsWellFormed bytes := by
    decide +kernel
  obtain ⟨qs, hr, -, -, s, hs, hstatus, -, hreport, -⟩ :=
    malformed_bytes_surface_in_code hf isUtf8_named hm
  have htext : Utf8.text qs = ['\x22', replacement, '\x22'] ++ [replacement] := by
    rw [← hr.decode_eq]
    decide +kernel
  obtain ⟨hfound, hdata⟩ := hreport.2 (Utf8.exists_inCode_iff.2 ⟨_, [], htext, by decide⟩)
  exact ⟨hf, hm, s, hs, hfound, fun logs command => by rw [hstatus, hdata]⟩

/-- In a comment or a string a byte that is malformed is not reported, and the file ends well. -/
theorem malformed_byte_passes_in_comment_and_string :
    let comment := [0x2F, 0x2F, 0xFF, 0x0A]
    let string := [0x22, 0xFF, 0x22]
    let files := (FileTree.ofEntries [(['a'], .file comment), (['b'], .file string)]).toFileSystem
    let utf8 := EncodingChoice.named "utf-8".toList
    let logs := programLogs commandLogger Log.usual
    (¬ Utf8.IsWellFormed comment ∧ ¬ Utf8.IsWellFormed string) ∧
      scanFile files ['a'] utf8 = .ok ⟨[Token.endOfText 2], []⟩ ∧
      (runFile logs commandLogger files ['a'] utf8).2 = .ok .success ∧
      (scanFile files ['b'] utf8).map Scan.errors = .ok [] ∧
      (runFile logs commandLogger files ['b'] utf8).2 = .ok .success := by
  decide +kernel

end

end ScriptLexer
