import MemoryProbe.Search.Budget

namespace MemoryProbe
namespace Budget

/-!
What a reservation and its return do to a budget, in unbounded arithmetic.
`Reserves` tells the four ends of a reservation apart by the numbers alone, and
`acquire_reserves` is the one place where `acquire` is opened.
-/

/-- How a reservation ends.  The four conditions exclude each other, so the
numbers decide the answer. -/
inductive Reserves (budget : Budget) (bytes : Word) :
    Except (Halt ScanError) Admission -> Prop where
  | refused (wide : budget.ceiling.toNat < bytes.toNat) :
    Reserves budget bytes (.error (.failure (.budgetExceeded bytes budget.ceiling)))
  | overflow (fits : bytes.toNat ≤ budget.ceiling.toNat)
    (beyond : UInt64.size ≤ budget.used.toNat + bytes.toNat) :
    Reserves budget bytes (.error (.fault .overflow))
  | wait (fits : bytes.toNat ≤ budget.ceiling.toNat)
    (full : budget.ceiling.toNat < budget.used.toNat + bytes.toNat) :
    Reserves budget bytes (.ok .wait)
  | granted (used : Word) (total : used.toNat = budget.used.toNat + bytes.toNat)
    (room : used.toNat ≤ budget.ceiling.toNat) :
    Reserves budget bytes (.ok (.granted (budget.withUsed used)))

/-- A reservation that is not refused depends on the sum of the bytes only. -/
theorem acquire_eq_of_le {budget : Budget} {bytes : Word}
    (fits : bytes.toNat ≤ budget.ceiling.toNat) :
    budget.acquire bytes =
      match Word.sum budget.used bytes with
      | .error kind => .error (.fault kind)
      | .ok used =>
        .ok (if budget.ceiling < used then .wait else .granted (budget.withUsed used)) := by
  unfold acquire
  rw [if_neg (UInt64.not_lt.mpr (UInt64.le_iff_toNat_le.mpr fits))]
  cases Word.sum budget.used bytes <;> rfl

theorem acquire_reserves (budget : Budget) (bytes : Word) :
    budget.Reserves bytes (budget.acquire bytes) := by
  by_cases fits : bytes.toNat ≤ budget.ceiling.toNat
  · rw [acquire_eq_of_le fits]
    cases formed : Word.sum budget.used bytes with
    | error kind =>
        rcases Word.sum_eq_error_iff.mp formed with ⟨rfl, beyond⟩
        exact .overflow fits beyond
    | ok used =>
        have total := Word.sum_eq_ok_iff.mp formed
        by_cases full : budget.ceiling < used
        · simp only [full, if_true]
          exact .wait fits (total ▸ UInt64.lt_iff_toNat_lt.mp full)
        · simp only [full, if_false]
          exact .granted used total (UInt64.le_iff_toNat_le.mp (UInt64.not_lt.mp full))
  · unfold acquire
    rw [if_pos (UInt64.lt_iff_toNat_lt.mpr (Nat.lt_of_not_le fits))]
    exact .refused (Nat.lt_of_not_le fits)

/-- A request that fits the ceiling is not refused. -/
theorem acquire_ne_failure {budget : Budget} {bytes : Word} (fits : bytes ≤ budget.ceiling)
    (cause : ScanError) : budget.acquire bytes ≠ .error (.failure cause) := by
  intro refused
  have reserves := budget.acquire_reserves bytes
  rw [refused] at reserves
  cases reserves with
  | refused wide => exact absurd wide (Nat.not_lt.mpr (UInt64.le_iff_toNat_le.mp fits))

/-- From a budget that is not in use, all up to the ceiling is granted. -/
theorem acquire_unused {budget : Budget} {bytes : Word} (unused : budget.used = 0)
    (fits : bytes.toNat ≤ budget.ceiling.toNat) :
    budget.acquire bytes = .ok (.granted (budget.withUsed bytes)) := by
  have none : budget.used.toNat = 0 := congrArg UInt64.toNat unused
  have small := bytes.toNat_lt
  have answer := budget.acquire_reserves bytes
  cases reserved : budget.acquire bytes with
  | error stop =>
      rw [reserved] at answer
      cases answer with
      | refused wide => omega
      | overflow _ beyond =>
          change 2 ^ 64 ≤ _ at beyond
          omega
  | ok admission =>
      rw [reserved] at answer
      cases answer with
      | wait _ full => omega
      | granted used total room =>
          rw [none, Nat.zero_add] at total
          rw [UInt64.toNat_inj.mp total]

@[simp] theorem withUsed_used (budget : Budget) (used : Word) :
    (budget.withUsed used).used = used := rfl

@[simp] theorem withUsed_ceiling (budget : Budget) (used : Word) :
    (budget.withUsed used).ceiling = budget.ceiling := rfl

theorem withUsed_peak (budget : Budget) (used : Word) :
    (budget.withUsed used).peak.toNat = max budget.peak.toNat used.toNat := by
  change (if budget.peak ≤ used then used else budget.peak).toNat = _
  by_cases raised : budget.peak ≤ used
  · rw [if_pos raised]
    exact (Nat.max_eq_right (UInt64.le_iff_toNat_le.mp raised)).symm
  · rw [if_neg raised]
    exact (Nat.max_eq_left (Nat.le_of_not_le fun le =>
      raised (UInt64.le_iff_toNat_le.mpr le))).symm

@[simp] theorem release_ceiling (budget : Budget) (bytes : Word) :
    (budget.release bytes).ceiling = budget.ceiling := rfl

@[simp] theorem release_peak (budget : Budget) (bytes : Word) :
    (budget.release bytes).peak = budget.peak := rfl

/-- Bytes that are in use come back exactly; the difference is never cut. -/
theorem release_used {budget : Budget} {bytes : Word}
    (held : bytes.toNat ≤ budget.used.toNat) :
    (budget.release bytes).used.toNat + bytes.toNat = budget.used.toNat := by
  have rest : Word.sub? budget.used bytes = some (budget.used - bytes) := by
    unfold Word.sub?
    rw [if_pos (UInt64.le_iff_toNat_le.mpr held)]
  have answer : (budget.release bytes).used = budget.used - bytes := by
    change (Word.sub? budget.used bytes).getD 0 = _
    rw [rest, Option.getD_some]
  have difference := Word.sub?_eq_some_iff.mp rest
  rw [answer]
  omega

end Budget
end MemoryProbe
