import Mathlib

namespace MemoryProbe

/-!
Sums over the entries of a list of which one is replaced.  The equations have
no subtraction, so linear arithmetic can use them as they are.
-/

variable {α : Type}

theorem sum_map_set (weigh : α -> Nat) {entries : List α} {index : Nat}
    {old : α} (new : α) (entry : entries[index]? = some old) :
    ((entries.set index new).map weigh).sum + weigh old =
      (entries.map weigh).sum + weigh new := by
  induction entries generalizing index with
  | nil => simp at entry
  | cons head tail ih =>
      cases index with
      | zero =>
          rw [List.getElem?_cons_zero, Option.some.injEq] at entry
          subst head
          simp only [List.set_cons_zero, List.map_cons, List.sum_cons]
          omega
      | succ index =>
          have rest := ih (List.getElem?_cons_succ ▸ entry)
          simp only [List.set_cons_succ, List.map_cons, List.sum_cons]
          omega

theorem sum_map_eraseIdx (weigh : α -> Nat) {entries : List α} {index : Nat}
    {entry : α} (found : entries[index]? = some entry) :
    ((entries.eraseIdx index).map weigh).sum + weigh entry = (entries.map weigh).sum := by
  induction entries generalizing index with
  | nil => simp at found
  | cons head tail ih =>
      cases index with
      | zero =>
          rw [List.getElem?_cons_zero, Option.some.injEq] at found
          subst head
          simp only [List.eraseIdx_cons_zero, List.map_cons, List.sum_cons]
          omega
      | succ index =>
          have rest := ih (List.getElem?_cons_succ ▸ found)
          simp only [List.eraseIdx_cons_succ, List.map_cons, List.sum_cons]
          omega

theorem modify_eq_set {change : α -> α} {entries : List α} {index : Nat} {old : α}
    (entry : entries[index]? = some old) :
    entries.modify index change = entries.set index (change old) := by
  apply List.ext_getElem?
  intro place
  rw [List.getElem?_modify, List.getElem?_set]
  by_cases same : index = place
  · subst place
    rcases List.getElem?_eq_some_iff.mp entry with ⟨inside, found⟩
    simp [inside, found]
  · simp [same]

theorem le_sum_of_mem (weigh : α -> Nat) {entries : List α} {entry : α}
    (member : entry ∈ entries) : weigh entry ≤ (entries.map weigh).sum := by
  induction entries with
  | nil => exact absurd member List.not_mem_nil
  | cons head tail ih =>
      simp only [List.map_cons, List.sum_cons]
      rcases List.mem_cons.mp member with same | later
      · subst head
        omega
      · have bound := ih later
        omega

theorem exists_pos_of_sum_pos {weigh : α -> Nat} {entries : List α}
    (positive : 0 < (entries.map weigh).sum) : ∃ entry, entry ∈ entries ∧ 0 < weigh entry := by
  induction entries with
  | nil => exact absurd positive (Nat.lt_irrefl 0)
  | cons head tail ih =>
      by_cases empty : weigh head = 0
      · have rest : 0 < (tail.map weigh).sum := by
          simpa only [List.map_cons, List.sum_cons, empty, Nat.zero_add] using positive
        rcases ih rest with ⟨entry, member, counts⟩
        exact ⟨entry, List.mem_cons_of_mem head member, counts⟩
      · exact ⟨head, List.mem_cons_self, Nat.pos_of_ne_zero empty⟩

theorem sum_le_length_mul {weigh : α -> Nat} {bound : Nat} {entries : List α}
    (below : forall entry, entry ∈ entries -> weigh entry ≤ bound) :
    (entries.map weigh).sum ≤ entries.length * bound := by
  induction entries with
  | nil => exact Nat.zero_le _
  | cons head tail ih =>
      have first := below head List.mem_cons_self
      have others := ih fun entry member => below entry (List.mem_cons_of_mem _ member)
      rw [List.map_cons, List.sum_cons, List.length_cons, Nat.succ_mul]
      omega

/-- Where no two entries count, the sum is that of one entry at most. -/
theorem sum_le_of_pairwise {weigh : α -> Nat} {bound : Nat} {entries : List α}
    (below : forall entry, entry ∈ entries -> weigh entry ≤ bound)
    (lone : entries.Pairwise fun entry other => weigh entry = 0 ∨ weigh other = 0) :
    (entries.map weigh).sum ≤ bound := by
  induction entries with
  | nil => exact Nat.zero_le _
  | cons head tail ih =>
      rcases List.pairwise_cons.mp lone with ⟨others, rest⟩
      have bounded := ih (fun entry member => below entry (List.mem_cons_of_mem _ member)) rest
      rw [List.map_cons, List.sum_cons]
      by_cases empty : weigh head = 0
      · omega
      · have none : (tail.map weigh).sum = 0 := by
          apply Nat.eq_zero_of_not_pos
          intro positive
          rcases exists_pos_of_sum_pos positive with ⟨entry, member, counts⟩
          have silent := (others entry member).resolve_left empty
          omega
        have first := below head List.mem_cons_self
        omega

end MemoryProbe
