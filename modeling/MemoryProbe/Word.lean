import MemoryProbe.Fault

namespace MemoryProbe

/-!
Unsigned 64-bit words, the range of every address, size and count of the
inspected machine.  Sums, differences and products come in three forms: one
that answers nothing outside the range, one that stops at the nearest end of
the range, and one that faults.  The lemmas give each of them in unbounded
arithmetic.
-/

/-- An unsigned 64-bit word. -/
abbrev Word := UInt64

namespace Word

def greatest : Word := 0xFFFFFFFFFFFFFFFF

/-- The sum, if it is a word. -/
def add? (left right : Word) : Option Word :=
  if left.toNat + right.toNat < UInt64.size then some (left + right) else none

/-- The difference, if it is not negative. -/
def sub? (left right : Word) : Option Word :=
  if right ≤ left then some (left - right) else none

/-- The product, if it is a word. -/
def mul? (left right : Word) : Option Word :=
  if left.toNat * right.toNat < UInt64.size then some (left * right) else none

/-- The sum, held at the greatest word. -/
def saturatingAdd (left right : Word) : Word :=
  (add? left right).getD greatest

/-- The difference, held at zero. -/
def saturatingSub (left right : Word) : Word :=
  (sub? left right).getD 0

/-- The sum; leaving the range is a fault. -/
def sum (left right : Word) : Except Fault Word :=
  (add? left right).elim (.error .overflow) .ok

/-- The difference; falling below zero is a fault. -/
def difference (left right : Word) : Except Fault Word :=
  (sub? left right).elim (.error .overflow) .ok

/-- The distance between two words, whichever is the greater. -/
def distance (left right : Word) : Word :=
  if left ≤ right then right - left else left - right

theorem add?_eq_some_iff {left right total : Word} :
    add? left right = some total <->
      total.toNat = left.toNat + right.toNat := by
  have hbound := total.toNat_lt
  unfold add?
  split
  · rename_i hfits
    have hsum : (left + right).toNat = left.toNat + right.toNat := by
      rw [UInt64.toNat_add]
      exact Nat.mod_eq_of_lt hfits
    rw [Option.some.injEq, <- UInt64.toNat_inj, hsum]
    exact eq_comm
  · rename_i hwide
    simp only [reduceCtorEq, false_iff]
    intro heq
    exact hwide (heq ▸ hbound)

theorem add?_eq_none_iff {left right : Word} :
    add? left right = none <-> UInt64.size ≤ left.toNat + right.toNat := by
  unfold add?
  split <;> simp_all

theorem sub?_eq_some_iff {left right rest : Word} :
    sub? left right = some rest <->
      left.toNat = right.toNat + rest.toNat := by
  unfold sub?
  split
  · rename_i hle
    have hdiff : (left - right).toNat = left.toNat - right.toNat :=
      UInt64.toNat_sub_of_le left right hle
    have hle' : right.toNat ≤ left.toNat := hle
    rw [Option.some.injEq, <- UInt64.toNat_inj, hdiff]
    omega
  · rename_i hlt
    have hlt' : ¬ right.toNat ≤ left.toNat := hlt
    simp only [reduceCtorEq, false_iff]
    omega

theorem mul?_eq_some_iff {left right product : Word} :
    mul? left right = some product <->
      product.toNat = left.toNat * right.toNat := by
  have hbound := product.toNat_lt
  unfold mul?
  split
  · rename_i hfits
    have hproduct : (left * right).toNat = left.toNat * right.toNat := by
      rw [UInt64.toNat_mul]
      exact Nat.mod_eq_of_lt hfits
    rw [Option.some.injEq, <- UInt64.toNat_inj, hproduct]
    exact eq_comm
  · rename_i hwide
    simp only [reduceCtorEq, false_iff]
    intro heq
    exact hwide (heq ▸ hbound)

theorem mul?_eq_none_iff {left right : Word} :
    mul? left right = none <-> UInt64.size ≤ left.toNat * right.toNat := by
  unfold mul?
  split <;> simp_all

theorem sum_eq_ok_iff {left right total : Word} :
    sum left right = .ok total <->
      total.toNat = left.toNat + right.toNat := by
  rw [<- add?_eq_some_iff]
  unfold sum
  cases add? left right <;> simp

theorem sum_eq_error_iff {left right : Word} {kind : Fault} :
    sum left right = .error kind <->
      kind = .overflow ∧ UInt64.size ≤ left.toNat + right.toNat := by
  rw [<- add?_eq_none_iff]
  unfold sum
  cases add? left right <;> simp [eq_comm]

theorem difference_eq_ok_iff {left right rest : Word} :
    difference left right = .ok rest <->
      left.toNat = right.toNat + rest.toNat := by
  rw [<- sub?_eq_some_iff]
  unfold difference
  cases sub? left right <;> simp

theorem toNat_saturatingAdd (left right : Word) :
    (saturatingAdd left right).toNat =
      min (left.toNat + right.toNat) (UInt64.size - 1) := by
  unfold saturatingAdd
  cases hsum : add? left right with
  | none =>
    have hwide := add?_eq_none_iff.mp hsum
    rw [Option.getD_none, Nat.min_eq_right (Nat.le_trans (Nat.sub_le _ _) hwide)]
    rfl
  | some total =>
    have htotal := add?_eq_some_iff.mp hsum
    have hbound : total.toNat < UInt64.size := total.toNat_lt
    rw [Option.getD_some]
    omega

/-- Clearing the lowest bits rounds down. -/
theorem and_highBits {value low : Nat} (small : value < UInt64.size) (inside : low ≤ 64) :
    value &&& (Nat.pow 2 (64 - low) - 1) * Nat.pow 2 low =
      value / Nat.pow 2 low * Nat.pow 2 low := by
  simp only [Nat.pow_eq]
  apply Nat.eq_of_testBit_eq
  intro place
  rw [Nat.testBit_and, Nat.testBit_mul_two_pow, Nat.testBit_mul_two_pow,
    Nat.testBit_two_pow_sub_one, Nat.testBit_div_two_pow]
  by_cases high : low ≤ place
  · rw [Nat.sub_add_cancel high, decide_eq_true high, Bool.true_and, Bool.true_and]
    by_cases below : place < 64
    · rw [decide_eq_true (by omega), Bool.and_true]
    · have wide : UInt64.size ≤ Nat.pow 2 place :=
        Nat.pow_le_pow_right Nat.two_pos (by omega : 64 ≤ place)
      have beyond : value < Nat.pow 2 place := Nat.lt_of_lt_of_le small wide
      rw [Nat.testBit_lt_two_pow beyond, Bool.false_and]
  · rw [decide_eq_false high, Bool.false_and, Bool.false_and, Bool.and_false]

end Word

end MemoryProbe
