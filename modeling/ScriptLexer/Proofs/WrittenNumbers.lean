import ScriptLexer.Numeric.Written
import ScriptLexer.Proofs.NumberText

/-! # The characters of written numbers

Written integers determine the integer. Of written values no more is needed than what they consist
of: digits, a point, signs, and the letters of an exponent and of the words for infinity and for no
number. So neither a quote nor a comma is among them. -/

namespace ScriptLexer

namespace Text

theorem isDigit_of_mem_ofNat {n : Nat} {c : Char} (h : c ∈ ofNat n) : isDigit c = true := by
  rw [isDigit_eq]
  exact Nat.isDigit_of_mem_toDigits (by decide) (by decide) h

theorem ofNat_inj {m n : Nat} : ofNat m = ofNat n ↔ m = n := by
  constructor
  · intro h
    have hv := congrArg (fun t => Nat.ofDigitChars 10 t 0) h
    simpa [ofNat] using hv
  · rintro rfl
    rfl

theorem ofInt_inj {m n : Int} : ofInt m = ofInt n ↔ m = n := by
  have hs : ∀ (i : Nat) (t : Text), ofNat i ≠ '-' :: t := by
    intro i t h
    have hd := isDigit_of_mem_ofNat (n := i) (c := '-') (by simp [h])
    cases hd
  constructor
  · intro h
    cases m with
    | ofNat i =>
      cases n with
      | ofNat j => rw [ofNat_inj.1 h]
      | negSucc j => exact absurd h (hs i _)
    | negSucc i =>
      cases n with
      | ofNat j => exact absurd h.symm (hs j _)
      | negSucc j =>
        have hn := ofNat_inj.1 (List.cons.inj h).2
        rw [Nat.succ.inj hn]
  · rintro rfl
    rfl

end Text

/-- The characters of written numbers. -/
def valueCharacters : Text :=
  '-' :: '+' :: 'e' :: 'i' :: 'n' :: 'f' :: 'a' :: numberCharacters

theorem mem_valueCharacters_of_isDigit {c : Char} (h : isDigit c = true) : c ∈ valueCharacters := by
  simp [valueCharacters, mem_numberCharacters h]

theorem mem_valueCharacters_of_mem_ofNat {n : Nat} :
    ∀ c ∈ Text.ofNat n, c ∈ valueCharacters :=
  fun _ hc => mem_valueCharacters_of_isDigit (Text.isDigit_of_mem_ofNat hc)

theorem mem_valueCharacters_of_mem_ofInt {n : Int} :
    ∀ c ∈ Text.ofInt n, c ∈ valueCharacters := by
  cases n with
  | ofNat i => exact mem_valueCharacters_of_mem_ofNat
  | negSucc i => exact List.forall_mem_cons.2 ⟨by decide, mem_valueCharacters_of_mem_ofNat⟩

namespace Decimal

theorem mem_zeros (n : Nat) : ∀ c ∈ List.replicate n '0', c ∈ valueCharacters := by
  intro c hc
  rw [List.eq_of_mem_replicate hc]
  decide

theorem mem_writtenExponent (e : Int) : ∀ c ∈ writtenExponent e, c ∈ valueCharacters := by
  unfold writtenExponent
  refine List.forall_mem_cons.2 ⟨?_, List.forall_mem_append.2
    ⟨mem_zeros _, mem_valueCharacters_of_mem_ofNat⟩⟩
  split <;> decide

theorem mem_written (d : Decimal) : ∀ c ∈ d.written, c ∈ valueCharacters := by
  have hd := mem_valueCharacters_of_mem_ofNat (n := d.digits)
  have hdrop : ∀ {t : Text} (k : Nat), (∀ c ∈ t, c ∈ valueCharacters) →
      ∀ c ∈ t.drop k, c ∈ valueCharacters := fun k h c hc => h c (List.mem_of_mem_drop hc)
  have htake : ∀ {t : Text} (k : Nat), (∀ c ∈ t, c ∈ valueCharacters) →
      ∀ c ∈ t.take k, c ∈ valueCharacters := fun k h c hc => h c (List.mem_of_mem_take hc)
  have hz : ∀ c ∈ "0.".toList, c ∈ valueCharacters := Text.forall_mem_of_all (by decide)
  unfold written
  dsimp only
  split
  · split
    · exact List.forall_mem_append.2 ⟨List.forall_mem_append.2 ⟨hz, mem_zeros _⟩, hd⟩
    · have hf := List.forall_mem_append.2
        ⟨hd, mem_zeros ((d.exponent + (Text.ofNat d.digits).length - 1 + 1).toNat -
          (Text.ofNat d.digits).length)⟩
      refine List.forall_mem_append.2 ⟨htake _ hf, List.forall_mem_cons.2 ⟨by decide, ?_⟩⟩
      split
      · exact Text.forall_mem_of_all (by decide)
      · exact hdrop _ hf
  · refine List.forall_mem_append.2 ⟨List.forall_mem_append.2 ⟨htake 1 hd, ?_⟩,
      List.forall_mem_cons.2 ⟨by decide, mem_writtenExponent _⟩⟩
    split
    · simp
    · exact List.forall_mem_cons.2 ⟨by decide, hdrop 1 hd⟩

end Decimal

theorem Binary64.mem_written (v : Binary64) : ∀ c ∈ v.written, c ∈ valueCharacters := by
  have hs : ∀ negative, ∀ c ∈ writtenSign negative, c ∈ valueCharacters := by
    intro negative
    cases negative <;> exact Text.forall_mem_of_all (by decide)
  unfold Binary64.written
  split
  · exact Text.forall_mem_of_all (by decide)
  · exact List.forall_mem_append.2 ⟨hs _, Text.forall_mem_of_all (by decide)⟩
  · exact List.forall_mem_append.2 ⟨hs _, Text.forall_mem_of_all (by decide)⟩
  · exact List.forall_mem_append.2 ⟨hs _, Decimal.mem_written _⟩

end ScriptLexer
