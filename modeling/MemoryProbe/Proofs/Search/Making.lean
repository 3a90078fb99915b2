import MemoryProbe.Proofs.Word.Alignment
import MemoryProbe.Search.Layout

namespace MemoryProbe

/-!
Which layouts there are.  A layout is refused for a cause, and only if in unbounded
arithmetic there is none: the troubles are looked for one after the other, and a product
or a sum that is no word is found out before it is used.
-/

/-- What keeps blocks of so many granularities from being laid out for patterns of a
length. -/
inductive LayoutDefect.Bars (granularity factor patternLength : Word) : LayoutDefect -> Prop where
  | granularity (uneven : ¬ granularity.toNat.isPowerOfTwo) :
      Bars granularity factor patternLength (.granularity granularity)
  | noFactor (even : granularity.toNat.isPowerOfTwo) (none : factor.toNat = 0) :
      Bars granularity factor patternLength .noFactor
  | overflow (even : granularity.toNat.isPowerOfTwo) (some : factor.toNat ≠ 0)
      (wide : 2 ^ 64 ≤ granularity.toNat * factor.toNat + 16 * (patternLength.toNat ⌈/⌉ 16)) :
      Bars granularity factor patternLength .overflow

namespace BlockLayout

variable {granularity factor patternLength : Word}

/-- The answers to a request for a layout. -/
inductive Answers (granularity factor patternLength : Word) :
    Except (Halt ScanError) BlockLayout -> Prop where
  | empty (none : patternLength.toNat = 0) :
      Answers granularity factor patternLength (.error (.failure .emptyPattern))
  | barred {defect : LayoutDefect} (some : patternLength.toNat ≠ 0)
      (bars : defect.Bars granularity factor patternLength) :
      Answers granularity factor patternLength (.error (.failure (.invalidLayout defect)))
  | made {layout : BlockLayout} (some : patternLength.toNat ≠ 0)
      (even : granularity.toNat.isPowerOfTwo) (times : factor.toNat ≠ 0)
      (size : layout.blockSize.toNat = granularity.toNat * factor.toNat)
      (overlap : layout.overlap.toNat = 16 * (patternLength.toNat ⌈/⌉ 16)) :
      Answers granularity factor patternLength (.ok layout)

theorem answers_make (short : patternLength.toNat + 16 < UInt64.size) :
    Answers granularity factor patternLength (make granularity factor patternLength) := by
  have nonzero {value : Word} (some : ¬ value = 0) : value.toNat ≠ 0 :=
    fun none => some (UInt64.toNat_inj.mp none)
  unfold make
  split
  · rename_i none
    exact .empty (congrArg UInt64.toNat none)
  rename_i some
  split
  · rename_i uneven
    rw [Bool.not_eq_true', <- Bool.not_eq_true, Word.isPowerOfTwo_iff] at uneven
    exact .barred (nonzero some) (.granularity uneven)
  rename_i even
  rw [Bool.not_eq_true', Bool.not_eq_false, Word.isPowerOfTwo_iff] at even
  split
  · rename_i none
    exact .barred (nonzero some) (.noFactor even (congrArg UInt64.toNat none))
  rename_i times
  split
  · rename_i wide
    have beyond : 2 ^ 64 ≤ granularity.toNat * factor.toNat := Word.mul?_eq_none_iff.mp wide
    exact .barred (nonzero some)
      (.overflow even (nonzero times) (Nat.le_add_right_of_le beyond))
  · rename_i blockSize product
    have size := Word.mul?_eq_some_iff.mp product
    rcases @Word.exists_alignUp patternLength overlapAlignment ⟨4, rfl⟩ short with
      ⟨overlap, rounded, least⟩
    change overlap.toNat = 16 * (patternLength.toNat ⌈/⌉ 16) at least
    rw [rounded]
    change Answers _ _ _ (if h : _ then _ else _)
    split
    · exact .made (nonzero some) even (nonzero times) size least
    · rename_i full
      have positive : 0 < blockSize.toNat :=
        size ▸ Nat.mul_pos (Nat.pos_of_isPowerOfTwo even) (Nat.pos_of_ne_zero (nonzero times))
      have wide := Nat.le_of_not_lt fun fits => full ⟨positive, fits⟩
      rw [size, least] at wide
      exact .barred (nonzero some) (.overflow even (nonzero times) wide)

/-- There is a layout exactly if there is something to look for, the granularity is a power
of two, and a full block of some granularities and the overlap is no longer than a word can
tell; and it is that layout.  Asking for one never faults: an empty pattern is refused as
such, and whatever else stands in the way is named. -/
theorem make_eq_ok_or_names_defect (short : patternLength.toNat ≤ 2 ^ 64 - 17) :
    ((∃ layout, make granularity factor patternLength = .ok layout) <->
      patternLength.toNat ≠ 0 ∧ (∃ power, granularity.toNat = 2 ^ power) ∧ factor.toNat ≠ 0 ∧
        granularity.toNat * factor.toNat + 16 * (patternLength.toNat ⌈/⌉ 16) < 2 ^ 64) ∧
    (forall layout, make granularity factor patternLength = .ok layout ->
      layout.blockSize.toNat = granularity.toNat * factor.toNat ∧
      IsLeast {overlap | 16 ∣ overlap ∧ patternLength.toNat ≤ overlap} layout.overlap.toNat) ∧
    forall stop, make granularity factor patternLength = .error stop ->
      (patternLength.toNat = 0 ∧ stop = .failure .emptyPattern) ∨
      (patternLength.toNat ≠ 0 ∧ ∃ defect : LayoutDefect,
        defect.Bars granularity factor patternLength ∧
          stop = .failure (.invalidLayout defect)) := by
  have answers : Answers granularity factor patternLength
      (make granularity factor patternLength) := by
    apply answers_make
    change _ < 2 ^ 64
    omega
  generalize make granularity factor patternLength = answer at answers
  cases answers with
  | empty none =>
      refine ⟨?_, ?_, ?_⟩
      · simp [none]
      · simp
      · rintro stop ⟨⟩
        exact .inl ⟨none, rfl⟩
  | barred some bars =>
      refine ⟨?_, ?_, ?_⟩
      · simp only [reduceCtorEq, exists_false, false_iff]
        rintro ⟨-, even, times, fits⟩
        cases bars with
        | granularity uneven => exact uneven even
        | noFactor _ none => exact times none
        | overflow _ _ wide => exact absurd fits (Nat.not_lt.mpr wide)
      · simp
      · rintro stop ⟨⟩
        exact .inr ⟨some, _, bars, rfl⟩
  | made some even times size overlap =>
      rename_i layout
      have fits := layout.full_lt
      rw [size, overlap] at fits
      refine ⟨?_, ?_, ?_⟩
      · exact iff_of_true ⟨layout, rfl⟩ ⟨some, even, times, fits⟩
      · rintro other ⟨⟩
        exact ⟨size, overlap ▸ Word.isLeast_mul_ceilDiv (by decide) _⟩
      · simp

/-- A full block as long as a word can tell; and a product that is no word. -/
theorem make_eq_ok_or_names_defect_of_longest :
    (∃ layout, make 1 0xFFFFFFFFFFFFFFEF 4 = .ok layout ∧
      layout.blockSize.toNat = 2 ^ 64 - 17 ∧ layout.overlap.toNat = 16) ∧
    ¬ ∃ layout, make 0x8000000000000000 2 4 = .ok layout := by
  have short : (4 : Word).toNat ≤ 2 ^ 64 - 17 := by decide
  have longest := @make_eq_ok_or_names_defect 1 0xFFFFFFFFFFFFFFEF 4 short
  have wrapped := @make_eq_ok_or_names_defect 0x8000000000000000 2 4 short
  refine ⟨?_, fun made => absurd (wrapped.1.mp made).2.2.2 (by decide)⟩
  rcases longest.1.mpr ⟨by decide, ⟨0, rfl⟩, by decide, by decide⟩ with ⟨layout, made⟩
  rcases longest.2.1 layout made with ⟨size, least⟩
  refine ⟨layout, made, size, ?_⟩
  exact least.unique (Word.isLeast_mul_ceilDiv (by decide) 4)

end BlockLayout
end MemoryProbe
