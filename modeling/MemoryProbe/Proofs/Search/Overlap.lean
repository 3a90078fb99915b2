import MemoryProbe.Proofs.EntrySum
import MemoryProbe.Proofs.Search.Cutting

namespace MemoryProbe

/-!
How often a range is held.  Blocks begin one block size apart and reach the overlap
beyond the next one.  The overlap may be many times the block size, and a single byte
may lie in many blocks; but it exceeds the length it was made for by less than sixteen
bytes, so that length fits whole into two neighbours at most.
-/

instance (place length : Nat) (block : ReadBlock) : Decidable (block.Spans place length) :=
  decidable_of_iff (block.start.toNat ≤ place ∧
      place + length ≤ block.start.toNat + block.length.toNat)
    ⟨fun both => ⟨both.1, both.2⟩, fun spans => ⟨spans.start_le, spans.le_stop⟩⟩

/-- How many of some blocks hold a range of addresses. -/
def holders (blocks : List ReadBlock) (place length : Nat) : Nat :=
  blocks.countP fun block => decide (block.Spans place length)

/-- How many blocks may hold a range that begins at a place, of those that begin every
`size` bytes from `low` on. -/
def reach (size low place : Nat) : Nat :=
  if place < low then 0 else if place < low + size then 1 else 2

theorem reach_le_two (size low place : Nat) : reach size low place ≤ 2 := by
  unfold reach
  grind

/-- Beginning one block later does not add to the blocks. -/
theorem reach_next_le (size low place : Nat) :
    reach size (low + size) place ≤ reach size low place := by
  unfold reach
  grind

/-- A block more is one more for the ranges that begin in it or in the next one. -/
theorem reach_next_lt (size : Nat) {low place : Nat} (begun : low ≤ place)
    (near : place < low + size + size) :
    reach size (low + size) place + 1 ≤ reach size low place := by
  unfold reach
  grind

/-- No place lies in both regions. -/
def Region.Apart (region later : Region) : Prop :=
  forall place, ¬ ((region.base.toNat ≤ place ∧
      place < region.base.toNat + region.size.toNat) ∧
    later.base.toNat ≤ place ∧ place < later.base.toNat + later.size.toNat)

/-- Regions that each end before the next one begins have no place in common. -/
theorem Region.Apart.of_pairwise {regions : List Region}
    (ascending : regions.Pairwise fun region later =>
      region.base.toNat + region.size.toNat ≤ later.base.toNat) :
    regions.Pairwise Region.Apart := by
  refine ascending.imp fun behind place both => ?_
  have inside := both.1.2
  have above := both.2.1
  omega

namespace BlockLayout

variable {layout : BlockLayout} {base : Address} {regionIndex place length : Nat}

/-- A new block holds a range or it does not. -/
theorem holders_cons (block : ReadBlock) (blocks : List ReadBlock) (place length : Nat) :
    holders (block :: blocks) place length =
      holders blocks place length + if block.Spans place length then 1 else 0 := by
  unfold holders
  rw [List.countP_cons]
  simp only [decide_eq_true_eq]

theorem holders_reverse (blocks : List ReadBlock) (place length : Nat) :
    holders blocks.reverse place length = holders blocks place length :=
  List.countP_reverse

/-- Of the blocks that are cut from a place on, none holds a range that begins before
that place, one at most a range that begins before the second of them, and two at most
any range. -/
theorem holders_cutFrom_le {offset remaining : Word} {cut blocks : List ReadBlock}
    (place : Nat) (wide : 16 ≤ layout.blockSize.toNat) (long : layout.overlap.toNat < length + 16)
    (answered : layout.cutFrom base regionIndex offset remaining cut = .ok blocks) :
    holders blocks place length ≤ holders cut place length +
      reach layout.blockSize.toNat (base.toNat + offset.toNat) place := by
  induction offset, remaining, cut using cutFrom.induct layout base regionIndex
      generalizing blocks with
  | case1 offset cut =>
      unfold cutFrom at answered
      rw [if_pos rfl] at answered
      cases answered
      rw [holders_reverse]
      exact Nat.le_add_right _ _
  | case2 offset remaining cut some kind failed =>
      unfold cutFrom at answered
      rw [if_neg some, failed] at answered
      contradiction
  | case3 offset remaining cut some start there kind failed =>
      unfold cutFrom at answered
      rw [if_neg some, there] at answered
      dsimp only at answered
      rw [failed] at answered
      contradiction
  | case4 offset remaining cut some start there next later full ih =>
      unfold cutFrom at answered
      rw [if_neg some, there] at answered
      dsimp only at answered
      rw [later] at answered
      dsimp only at answered
      rw [if_pos full] at answered
      have begins := Address.advance_eq_ok_iff.mp there
      have moved := Word.sum_eq_ok_iff.mp later
      have whole := layout.fullLength_toNat
      have rest := ih answered
      rw [holders_cons, moved, <- Nat.add_assoc] at rest
      -- A range that this block holds begins in it or in the next one.
      by_cases spans :
          (⟨start, layout.fullLength, regionIndex⟩ : ReadBlock).Spans place length
      · have low := spans.start_le
        have high := spans.le_stop
        simp only at low high
        have one := reach_next_lt layout.blockSize.toNat
          (Nat.le_trans (Nat.le_of_eq begins.symm) low) (by omega)
        rw [if_pos spans] at rest
        omega
      · have less := reach_next_le layout.blockSize.toNat (base.toNat + offset.toNat) place
        rw [if_neg spans] at rest
        omega
  | case5 offset remaining cut some start there next later partly =>
      unfold cutFrom at answered
      rw [if_neg some, there] at answered
      dsimp only at answered
      rw [later] at answered
      dsimp only at answered
      rw [if_neg partly] at answered
      cases answered
      have begins := Address.advance_eq_ok_iff.mp there
      rw [holders_reverse, holders_cons]
      by_cases spans : (⟨start, remaining, regionIndex⟩ : ReadBlock).Spans place length
      · have low := spans.start_le
        simp only at low
        have one : 1 ≤ reach layout.blockSize.toNat (base.toNat + offset.toNat) place := by
          unfold reach
          rw [if_neg (by omega)]
          split <;> omega
        rw [if_pos spans]
        omega
      · rw [if_neg spans]
        exact Nat.add_le_add_left (Nat.zero_le _) _

/-- A range that a region's blocks hold lies in the region. -/
theorem inside_of_holders {region : Region} {blocks : List ReadBlock}
    (answered : layout.split region regionIndex = .ok blocks)
    (held : 0 < holders blocks place length) :
    region.base.toNat ≤ place ∧
      place + length ≤ region.base.toNat + region.size.toNat := by
  rcases List.countP_pos_iff.mp held with ⟨block, member, spans⟩
  have holds := of_decide_eq_true spans
  rcases (split_cuts answered).within block member with none | within
  · exact absurd none List.not_mem_nil
  · exact ⟨Nat.le_trans within.low_le holds.start_le,
      Nat.le_trans holds.le_stop within.le_high⟩

theorem holders_split_le {region : Region} {blocks : List ReadBlock}
    (wide : 16 ≤ layout.blockSize.toNat) (long : layout.overlap.toNat < length + 16)
    (answered : layout.split region regionIndex = .ok blocks) :
    holders blocks place length ≤ 2 := by
  have bound := holders_cutFrom_le place wide long answered
  have two := reach_le_two layout.blockSize.toNat
    (region.base.toNat + (0 : Word).toNat) place
  have none : holders [] place length = 0 := rfl
  omega

/-- What two regions' blocks both hold lies in both regions. -/
theorem holders_eq_zero_or {region later : Region} {index other : Nat}
    {cut rest : List ReadBlock} (apart : region.Apart later) (positive : 0 < length)
    (first : layout.split region index = .ok cut)
    (second : layout.split later other = .ok rest) :
    holders cut place length = 0 ∨ holders rest place length = 0 := by
  by_cases held : holders cut place length = 0
  · exact Or.inl held
  · refine Or.inr (Nat.eq_zero_of_not_pos fun again => ?_)
    have here := inside_of_holders first (Nat.pos_of_ne_zero held)
    have there := inside_of_holders second again
    exact apart place ⟨⟨here.1, by omega⟩, there.1, by omega⟩

/-- No range is held by more than two planned blocks. -/
theorem holders_plan_le {regions : List Region} {blocks : List ReadBlock} (place : Nat)
    (wide : 16 ≤ layout.blockSize.toNat) (long : layout.overlap.toNat < length + 16)
    (positive : 0 < length) (apart : regions.Pairwise Region.Apart)
    (planned : layout.plan regions = .ok blocks) : holders blocks place length ≤ 2 := by
  rcases exists_parts_of_plan planned with ⟨parts, answered, rfl⟩
  have paired := mapM_eq_ok_iff.mp answered
  -- The part with a number was cut from the region with that number.
  have cut : forall index part, parts[index]? = some part ->
      ∃ region, regions[index]? = some region ∧ layout.split region index = .ok part := by
    intro index part found
    have same := congrArg (fun answers => answers[index]?) paired
    simp only [List.getElem?_map, found, List.getElem?_zipIdx, Option.map_some,
      Option.map_map] at same
    rcases Option.map_eq_some_iff.mp same with ⟨region, there, split⟩
    exact ⟨region, there, by simpa using split⟩
  unfold holders
  rw [List.countP_flatten]
  refine sum_le_of_pairwise (fun part among => ?_) ?_
  · rcases List.getElem?_of_mem among with ⟨index, found⟩
    rcases cut index part found with ⟨region, -, split⟩
    exact holders_split_le wide long split
  · rw [List.pairwise_iff_getElem]
    intro index other inside beyond less
    rcases cut index _ (List.getElem?_eq_getElem inside) with ⟨region, here, first⟩
    rcases cut other _ (List.getElem?_eq_getElem beyond) with ⟨later, there, second⟩
    rcases List.getElem?_eq_some_iff.mp here with ⟨low, rfl⟩
    rcases List.getElem?_eq_some_iff.mp there with ⟨high, rfl⟩
    exact holders_eq_zero_or (List.pairwise_iff_getElem.mp apart index other low high less)
      positive first second

end BlockLayout
end MemoryProbe
