import Mathlib
import MemoryProbe.Word.Alignment

namespace MemoryProbe
namespace Word

/-!
What the two bit tricks come to in unbounded arithmetic.  A word without a bit below its
highest one is a power of two, and rounding up with the bits below such a power cleared
gives the least multiple of it that is not below.
-/

theorem isPowerOfTwo_iff {value : Word} :
    isPowerOfTwo value = true <-> value.toNat.isPowerOfTwo := by
  rw [<- Nat.ne_zero_and_sub_one_eq_zero_iff_isPowerOfTwo]
  unfold isPowerOfTwo
  rw [Bool.and_eq_true, bne_iff_ne, beq_iff_eq]
  apply and_congr
  · exact not_congr UInt64.toNat_inj.symm
  · rw [<- UInt64.toNat_inj, UInt64.toNat_and]
    by_cases zero : value = 0
    · subst zero
      simp
    · have positive : 0 < value.toNat :=
        Nat.pos_of_ne_zero fun none => zero (UInt64.toNat_inj.mp none)
      rw [UInt64.toNat_sub_of_le value 1 (UInt64.le_iff_toNat_le.mpr positive)]
      rfl

/-- The bits from a power of two on, of all the bits of a word. -/
theorem toNat_not_pred {alignment : Word} {power : Nat} (aligned : alignment.toNat = 2 ^ power) :
    (~~~(alignment - 1)).toNat = (Nat.pow 2 (64 - power) - 1) * Nat.pow 2 power := by
  have inside : 2 ^ power < 2 ^ 64 := aligned ▸ alignment.toNat_lt
  have below : power < 64 := (Nat.pow_lt_pow_iff_right (by decide)).mp inside
  have positive : 0 < alignment.toNat := aligned ▸ Nat.two_pow_pos power
  have whole : 2 ^ (64 - power) * 2 ^ power = UInt64.size := by
    rw [<- Nat.pow_add, Nat.sub_add_cancel below.le]
  have less : (alignment - 1).toNat = alignment.toNat - 1 :=
    UInt64.toNat_sub_of_le alignment 1 (UInt64.le_iff_toNat_le.mpr positive)
  rw [UInt64.toNat_not, less, aligned, Nat.pow_eq, Nat.pow_eq, Nat.sub_mul, whole]
  omega

theorem isLeast_mul_ceilDiv {alignment : Nat} (positive : 0 < alignment) (value : Nat) :
    IsLeast {multiple | alignment ∣ multiple ∧ value ≤ multiple}
      (alignment * (value ⌈/⌉ alignment)) := by
  refine ⟨⟨Nat.dvd_mul_right _ _, le_smul_ceilDiv positive⟩, ?_⟩
  rintro multiple ⟨⟨quotient, rfl⟩, above⟩
  exact Nat.mul_le_mul_left alignment ((ceilDiv_le_iff_le_mul positive).mpr above)

/-- Rounding up comes to the least multiple that is not below. -/
theorem toNat_of_alignUp {value alignment rounded : Word}
    (even : alignment.toNat.isPowerOfTwo) (answered : alignUp value alignment = .ok rounded) :
    rounded.toNat = alignment.toNat * (value.toNat ⌈/⌉ alignment.toNat) := by
  rcases even with ⟨power, aligned⟩
  have positive : 0 < alignment.toNat := aligned ▸ Nat.two_pow_pos power
  unfold alignUp at answered
  split at answered
  · rename_i trivial
    cases answered
    rcases trivial with zero | one
    · exact absurd (congrArg UInt64.toNat zero) positive.ne'
    · rw [one]
      simp
  · rcases total : sum value alignment with kind | raised
    · rw [total] at answered
      contradiction
    rw [total] at answered
    cases answered
    have inside : 2 ^ power < 2 ^ 64 := aligned ▸ alignment.toNat_lt
    have below : power ≤ 64 := ((Nat.pow_lt_pow_iff_right (by decide)).mp inside).le
    have grown := sum_eq_ok_iff.mp total
    have less := UInt64.toNat_sub_of_le raised 1
      (UInt64.le_iff_toNat_le.mpr (by rw [grown]; exact Nat.le_add_left_of_le positive))
    rw [UInt64.toNat_and, toNat_not_pred aligned, and_highBits (UInt64.toNat_lt _) below, less,
      grown, Nat.ceilDiv_eq_add_pred_div, Nat.mul_comm, aligned]
    rfl

/-- Rounding up faults only if the sum with the alignment is no word. -/
theorem exists_alignUp {value alignment : Word} (even : alignment.toNat.isPowerOfTwo)
    (fits : value.toNat + alignment.toNat < UInt64.size) :
    ∃ rounded, alignUp value alignment = .ok rounded ∧
      rounded.toNat = alignment.toNat * (value.toNat ⌈/⌉ alignment.toNat) := by
  suffices total : ∃ rounded, alignUp value alignment = .ok rounded by
    rcases total with ⟨rounded, answered⟩
    exact ⟨rounded, answered, toNat_of_alignUp even answered⟩
  have raised : sum value alignment = .ok (.ofNat (value.toNat + alignment.toNat)) :=
    sum_eq_ok_iff.mpr (UInt64.toNat_ofNat_of_lt' fits)
  unfold alignUp
  rw [raised]
  split
  · exact ⟨value, rfl⟩
  · exact ⟨_, rfl⟩

/-- Rounding up faults if the sum with the alignment is no word, unless there is nothing to
round to. -/
theorem alignUp_eq_error {value alignment : Word} (nonzero : alignment ≠ 0)
    (several : alignment ≠ 1) (wide : UInt64.size ≤ value.toNat + alignment.toNat) :
    alignUp value alignment = .error .overflow := by
  unfold alignUp
  rw [if_neg (not_or.mpr ⟨nonzero, several⟩), sum_eq_error_iff.mpr ⟨rfl, wide⟩]
  rfl

section Rounding

variable {value alignment : Word} (even : alignment.toNat.isPowerOfTwo)

include even

theorem exists_least_alignUp (fits : value.toNat + alignment.toNat < UInt64.size) :
    ∃ rounded, alignUp value alignment = .ok rounded ∧
      IsLeast {multiple | alignment.toNat ∣ multiple ∧ value.toNat ≤ multiple} rounded.toNat := by
  rcases exists_alignUp even fits with ⟨rounded, answered, least⟩
  exact ⟨rounded, answered, least ▸ isLeast_mul_ceilDiv (Nat.pos_of_isPowerOfTwo even) _⟩

/-- A multiple stays as it is, if it can be rounded at all. -/
theorem alignUp_of_dvd (whole : alignment.toNat ∣ value.toNat) :
    alignUp value alignment =
      if alignment = 1 ∨ value.toNat + alignment.toNat < UInt64.size then .ok value
      else .error .overflow := by
  have positive := Nat.pos_of_isPowerOfTwo even
  split
  · rename_i able
    rcases able with one | fits
    · rw [one]
      rfl
    · rcases exists_least_alignUp even fits with ⟨rounded, answered, least⟩
      have same : rounded.toNat = value.toNat :=
        least.unique ⟨⟨whole, le_rfl⟩, fun _ multiple => multiple.2⟩
      rw [answered, UInt64.toNat_inj.mp same]
  · rename_i unable
    rw [not_or, Nat.not_lt] at unable
    refine alignUp_eq_error (fun zero => positive.ne' ?_) unable.1 unable.2
    rw [zero]
    rfl

end Rounding

/-- Rounding up comes to the least multiple that is not below, as long as the sum of the number and
the alignment is a word: so it adds less than the alignment, it keeps the order of numbers, and
what it comes to is left alone by rounding it again, as long as the sum that this forms is a word
as well.  The test for a power of two tells exactly those. -/
theorem alignUp_reaches_least_multiple :
    (forall (value alignment : Word) (power : Nat), alignment.toNat = 2 ^ power ->
      value.toNat + alignment.toNat < 2 ^ 64 ->
      ∃ rounded, alignUp value alignment = .ok rounded ∧
        IsLeast {multiple | alignment.toNat ∣ multiple ∧ value.toNat ≤ multiple} rounded.toNat ∧
        rounded.toNat < value.toNat + alignment.toNat ∧
        (forall lower, lower ≤ value ->
          ∃ below, alignUp lower alignment = .ok below ∧ below ≤ rounded) ∧
        alignUp rounded alignment =
          if alignment = 1 ∨ rounded.toNat + alignment.toNat < 2 ^ 64 then .ok rounded
          else .error .overflow) ∧
    forall value : Word, isPowerOfTwo value = true <-> ∃ power, value.toNat = 2 ^ power := by
  refine ⟨fun value alignment power aligned fits => ?_, fun value => isPowerOfTwo_iff⟩
  have even : alignment.toNat.isPowerOfTwo := ⟨power, aligned⟩
  rcases exists_least_alignUp even fits with ⟨rounded, answered, least⟩
  refine ⟨rounded, answered, least, ?_, ?_, alignUp_of_dvd even least.1.1⟩
  · rw [toNat_of_alignUp even answered, Nat.ceilDiv_eq_add_pred_div]
    have raised := Nat.mul_div_le (value.toNat + alignment.toNat - 1) alignment.toNat
    have positive := Nat.pos_of_isPowerOfTwo even
    omega
  · intro lower under
    have under : lower.toNat ≤ value.toNat := UInt64.le_iff_toNat_le.mp under
    have fits : lower.toNat + alignment.toNat < UInt64.size :=
      Nat.lt_of_le_of_lt (Nat.add_le_add_right under _) fits
    rcases exists_least_alignUp even fits with ⟨below, answered, first⟩
    refine ⟨below, answered, UInt64.le_iff_toNat_le.mpr ?_⟩
    exact first.2 ⟨least.1.1, under.trans least.1.2⟩

/-- The last multiple of a page is reached from below, and a page cannot be added to it. -/
theorem alignUp_reaches_least_multiple_of_page :
    (∃ rounded, alignUp 0xFFFFFFFFFFFFEFFF 0x1000 = .ok rounded ∧
      rounded.toNat = 2 ^ 64 - 2 ^ 12 ∧ alignUp rounded 0x1000 = .error .overflow) ∧
    isPowerOfTwo 0x1000 = true := by
  rcases alignUp_reaches_least_multiple with ⟨rounds, tests⟩
  refine ⟨?_, (tests 0x1000).mpr ⟨12, rfl⟩⟩
  rcases rounds 0xFFFFFFFFFFFFEFFF 0x1000 12 rfl (by decide) with
    ⟨rounded, answered, least, -, -, again⟩
  have last : rounded.toNat = 2 ^ 64 - 2 ^ 12 :=
    least.unique (isLeast_mul_ceilDiv (by decide : 0 < 0x1000) 0xFFFFFFFFFFFFEFFF)
  refine ⟨rounded, answered, last, ?_⟩
  rw [again, if_neg]
  rw [last]
  decide

/-- What is rounded up need not be a number that can be rounded up, even though it is the multiple
to come to. -/
theorem alignUp_overflows_on_multiple :
    (1 : Word).toNat + (0x8000000000000000 : Word).toNat < 2 ^ 64 ∧
      alignUp 1 0x8000000000000000 = .ok 0x8000000000000000 ∧
      alignUp 0x8000000000000000 0x8000000000000000 = .error .overflow := by
  decide

end Word
end MemoryProbe
