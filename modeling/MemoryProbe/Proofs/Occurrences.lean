import MemoryProbe.Search.Pattern

namespace MemoryProbe
namespace Pattern

/-!
What the occurrences of a pattern are: the offsets at which the rest of the data
begins with the pattern, each once, in rising order.
-/

variable {pattern : Pattern} {bytes : List UInt8}

/-- Collecting goes on from an offset, one byte at a time. -/
theorem mem_collect {offset place : Nat} :
    place ∈ collect pattern offset [] bytes <->
      ∃ index, place = offset + index ∧ index < bytes.length ∧
        pattern.bytes <+: bytes.drop index := by
  induction bytes generalizing offset with
  | nil => simp [collect]
  | cons byte rest ih =>
      have later : place ∈ collect pattern (offset + 1) [] rest <->
          ∃ index, place = offset + (index + 1) ∧ index + 1 < (byte :: rest).length ∧
            pattern.bytes <+: (byte :: rest).drop (index + 1) := by
        rw [ih]
        refine exists_congr fun index => ?_
        rw [List.length_cons, List.drop_succ_cons, Nat.add_lt_add_iff_right]
        constructor
        · rintro ⟨rfl, inside, here⟩
          exact ⟨by omega, inside, here⟩
        · rintro ⟨rfl, inside, here⟩
          exact ⟨by omega, inside, here⟩
      unfold collect
      rw [collect_eq_append, List.mem_append, later]
      constructor
      · rintro (first | ⟨index, rest⟩)
        · split at first
          · rename_i here
            rw [List.reverse_singleton, List.mem_singleton] at first
            subst first
            exact ⟨0, rfl, Nat.zero_lt_succ _, List.isPrefixOf_iff_prefix.mp here⟩
          · exact absurd first List.not_mem_nil
        · exact ⟨index + 1, rest⟩
      · rintro ⟨index, same, inside, here⟩
        cases index with
        | zero =>
            rw [List.drop_zero] at here
            left
            rw [if_pos (List.isPrefixOf_iff_prefix.mpr here), same]
            exact List.mem_singleton.mpr rfl
        | succ index => exact Or.inr ⟨index, same, inside, here⟩

/-- An offset is an occurrence exactly if the data goes on with the pattern there. -/
theorem mem_occurrences {offset : Nat} :
    offset ∈ pattern.occurrences bytes <-> pattern.bytes <+: bytes.drop offset := by
  unfold occurrences
  rw [mem_collect]
  constructor
  · rintro ⟨index, same, -, here⟩
    rw [Nat.zero_add] at same
    exact same ▸ here
  · intro here
    refine ⟨offset, (Nat.zero_add offset).symm, Nat.lt_of_not_le fun beyond => ?_, here⟩
    rw [List.drop_eq_nil_of_le beyond, List.prefix_nil] at here
    exact pattern.nonempty here

/-- A whole occurrence lies inside the data. -/
theorem add_length_le_of_mem {offset : Nat} (member : offset ∈ pattern.occurrences bytes) :
    offset + pattern.length ≤ bytes.length := by
  have here := mem_occurrences.mp member
  have short := here.length_le
  have positive := List.length_pos_iff.mpr pattern.nonempty
  rw [List.length_drop] at short
  unfold length
  omega

theorem lt_length_of_mem {offset : Nat} (member : offset ∈ pattern.occurrences bytes) :
    offset < bytes.length := by
  have inside := add_length_le_of_mem member
  have positive : 0 < pattern.length := List.length_pos_iff.mpr pattern.nonempty
  omega

theorem collect_sorted (offset : Nat) :
    (collect pattern offset [] bytes).Pairwise fun left right => left < right := by
  induction bytes generalizing offset with
  | nil => exact List.Pairwise.nil
  | cons byte rest ih =>
      unfold collect
      rw [collect_eq_append, List.pairwise_append]
      refine ⟨?_, ih (offset + 1), ?_⟩
      · split
        · exact List.pairwise_singleton _ _
        · exact List.Pairwise.nil
      · intro left first right later
        rcases mem_collect.mp later with ⟨index, same, -, -⟩
        split at first
        · rw [List.reverse_singleton, List.mem_singleton] at first
          omega
        · exact absurd first List.not_mem_nil

theorem occurrences_sorted :
    (pattern.occurrences bytes).Pairwise fun left right => left < right :=
  collect_sorted 0

end Pattern
end MemoryProbe
