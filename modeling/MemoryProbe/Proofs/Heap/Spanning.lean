import MemoryProbe.Heap.Walk
import MemoryProbe.Proofs.Heap.Walking
import MemoryProbe.Proofs.Region.Chart

namespace MemoryProbe

/-!
The extent of a heap, as it is gathered block by block.  The blocks may come in any order,
overlap, and lead beyond the end of the address space.  The extent goes from the least
address of a block to the end of the first block of the greatest address.  If the blocks
share no byte, that is the end of all of them.
-/

/-- Two blocks share no byte. -/
def HeapBlock.Apart (block other : HeapBlock) : Prop :=
  block.past ≤ other.address.toNat ∨ other.past ≤ block.address.toNat

/-- The places of the bytes of a block. -/
def HeapBlock.places (block : HeapBlock) : Finset Nat :=
  Finset.Ico block.address.toNat block.past

namespace HeapBlock

variable {block other : HeapBlock}

theorem Apart.symm (apart : block.Apart other) : other.Apart block :=
  Or.symm apart

theorem card_places (block : HeapBlock) : block.places.card = block.size.toNat := by
  unfold places past
  rw [Nat.card_Ico, Nat.add_sub_cancel_left]

theorem Apart.disjoint (apart : block.Apart other) : Disjoint block.places other.places := by
  apply Finset.disjoint_left.mpr
  intro place here there
  have low := Finset.mem_Ico.mp here
  have high := Finset.mem_Ico.mp there
  rcases apart with before | behind
  · omega
  · omega

/-- Blocks that share no byte take no more bytes than a set has that holds all of them. -/
theorem sum_sizes_le_card {blocks : List HeapBlock} (apart : blocks.Pairwise Apart)
    {places : Finset Nat} (inside : forall block, block ∈ blocks -> block.places ⊆ places) :
    (blocks.map fun block => block.size.toNat).sum ≤ places.card := by
  induction blocks generalizing places with
  | nil => exact Nat.zero_le _
  | cons block rest ih =>
      rcases List.pairwise_cons.mp apart with ⟨others, among⟩
      have own := inside block List.mem_cons_self
      -- The other blocks lie in what the first one leaves free.
      have left : forall other, other ∈ rest -> other.places ⊆ places \ block.places := by
        intro other member
        apply Finset.subset_sdiff.mpr
        constructor
        · exact inside other (List.mem_cons_of_mem _ member)
        · exact (others other member).symm.disjoint
      have bound := ih among left
      have split := Finset.card_sdiff_add_card_eq_card own
      rw [card_places] at split
      rw [List.map_cons, List.sum_cons]
      omega

/-- Blocks that share no byte and lie between two places are no longer than their
distance. -/
theorem sum_sizes_le {blocks : List HeapBlock} (apart : blocks.Pairwise Apart) {low high : Nat}
    (inside : forall block, block ∈ blocks ->
      low ≤ block.address.toNat ∧ block.past ≤ high) :
    (blocks.map fun block => block.size.toNat).sum ≤ high - low := by
  rw [<- Nat.card_Ico low high]
  apply sum_sizes_le_card apart
  intro block member
  exact Finset.Ico_subset_Ico (inside block member).1 (inside block member).2

end HeapBlock

namespace HeapExtent

/-- What an extent tells of some blocks. -/
structure Spans (extent : HeapExtent) (blocks : List HeapBlock) : Prop where
  start_mem : ∃ block, block ∈ blocks ∧ block.address = extent.start
  start_le : forall block, block ∈ blocks -> extent.start.toNat ≤ block.address.toNat
  /-- The last block is the first of those at the greatest address. -/
  last_first : ∃ before after, blocks = before ++ extent.last :: after ∧
    (forall block, block ∈ before -> block.address.toNat < extent.last.address.toNat) ∧
    forall block, block ∈ after -> block.address.toNat ≤ extent.last.address.toNat

variable {extent : HeapExtent} {blocks : List HeapBlock}

/-- The start moves down to a block that begins below it. -/
theorem adjoin_start (extent : HeapExtent) (block : HeapBlock) :
    (extent.adjoin block).start = block.address ∧
        block.address.toNat < extent.start.toNat ∨
      (extent.adjoin block).start = extent.start ∧
        extent.start.toNat ≤ block.address.toNat := by
  by_cases lower : block.address < extent.start
  · exact Or.inl ⟨if_pos lower, Address.lt_iff_toNat_lt.mp lower⟩
  · exact Or.inr ⟨if_neg lower, Nat.le_of_not_lt fun less =>
      lower (Address.lt_iff_toNat_lt.mpr less)⟩

/-- A block becomes the last one if it begins behind the one before. -/
theorem adjoin_last (extent : HeapExtent) (block : HeapBlock) :
    (extent.adjoin block).last = block ∧
        extent.last.address.toNat < block.address.toNat ∨
      (extent.adjoin block).last = extent.last ∧
        block.address.toNat ≤ extent.last.address.toNat := by
  by_cases higher : extent.last.address < block.address
  · exact Or.inl ⟨if_pos higher, Address.lt_iff_toNat_lt.mp higher⟩
  · exact Or.inr ⟨if_neg higher, Nat.le_of_not_lt fun less =>
      higher (Address.lt_iff_toNat_lt.mpr less)⟩

theorem spans_ofBlock (block : HeapBlock) : (ofBlock block).Spans [block] := by
  constructor
  · exact ⟨block, List.mem_singleton_self block, rfl⟩
  · intro other member
    rw [List.mem_singleton.mp member]
    exact Nat.le_refl _
  · refine ⟨[], [], rfl, ?_, ?_⟩
    · intro other member
      exact absurd member List.not_mem_nil
    · intro other member
      exact absurd member List.not_mem_nil

namespace Spans

/-- No block begins behind the last one. -/
theorem address_le (spans : extent.Spans blocks) {block : HeapBlock} (member : block ∈ blocks) :
    block.address.toNat ≤ extent.last.address.toNat := by
  rcases spans.last_first with ⟨before, after, rfl, below, above⟩
  rcases List.mem_append.mp member with early | late
  · exact Nat.le_of_lt (below block early)
  · rcases List.mem_cons.mp late with rfl | late
    · exact Nat.le_refl _
    · exact above block late

theorem last_mem (spans : extent.Spans blocks) : extent.last ∈ blocks := by
  rcases spans.last_first with ⟨before, after, rfl, -, -⟩
  exact List.mem_append_right before List.mem_cons_self

/-- Taking one more block into account. -/
theorem adjoin (spans : extent.Spans blocks) (block : HeapBlock) :
    (extent.adjoin block).Spans (blocks ++ [block]) := by
  constructor
  · rcases adjoin_start extent block with ⟨begins, -⟩ | ⟨begins, -⟩
    · exact ⟨block, List.mem_append_right _ (List.mem_singleton_self block), begins.symm⟩
    · rcases spans.start_mem with ⟨first, member, same⟩
      exact ⟨first, List.mem_append_left _ member, same.trans begins.symm⟩
  · intro other member
    rcases List.mem_append.mp member with old | new
    · have least := spans.start_le other old
      rcases adjoin_start extent block with ⟨begins, low⟩ | ⟨begins, low⟩
      · rw [begins]
        omega
      · rw [begins]
        exact least
    · rw [List.mem_singleton.mp new]
      rcases adjoin_start extent block with ⟨begins, low⟩ | ⟨begins, low⟩
      · rw [begins]
      · rw [begins]
        exact low
  · rcases adjoin_last extent block with ⟨ends, higher⟩ | ⟨ends, lower⟩
    · rw [ends]
      refine ⟨blocks, [], rfl, ?_, ?_⟩
      · intro other member
        exact Nat.lt_of_le_of_lt (spans.address_le member) higher
      · intro other member
        exact absurd member List.not_mem_nil
    · rw [ends]
      rcases spans.last_first with ⟨before, after, parts, below, above⟩
      refine ⟨before, after ++ [block], ?_, below, ?_⟩
      · rw [parts, List.append_assoc, List.cons_append]
      · intro other member
        rcases List.mem_append.mp member with old | new
        · exact above other old
        · rw [List.mem_singleton.mp new]
          exact lower

theorem foldl (spans : extent.Spans blocks) (rest : List HeapBlock) :
    (rest.foldl HeapExtent.adjoin extent).Spans (blocks ++ rest) := by
  induction rest generalizing extent blocks with
  | nil =>
      rw [List.append_nil]
      exact spans
  | cons block rest ih =>
      have later := ih (spans.adjoin block)
      rw [List.append_assoc] at later
      exact later

end Spans

/-- The extent of some blocks tells what it should. -/
theorem spans_ofBlocks (first : HeapBlock) (rest : List HeapBlock) :
    (ofBlocks first rest).Spans (first :: rest) :=
  (spans_ofBlock first).foldl rest

/-- The end of an extent is the end of its last block, held at the greatest word. -/
theorem stop_toNat (extent : HeapExtent) :
    extent.stop.toNat = min extent.last.past (UInt64.size - 1) :=
  Word.toNat_saturatingAdd extent.last.address.value extent.last.size

namespace Spans

/-- An extent does not end before it begins. -/
theorem start_le_stop (spans : extent.Spans blocks) :
    extent.start.toNat ≤ extent.stop.toNat := by
  have low := spans.start_le extent.last spans.last_mem
  have bound : extent.last.address.toNat < UInt64.size := extent.last.address.value.toNat_lt
  have past : extent.last.past = extent.last.address.toNat + extent.last.size.toNat := rfl
  rw [stop_toNat]
  omega

/-- Blocks that are not empty, share no byte and end before the last byte of the address
space lie in their extent. -/
theorem contains (spans : extent.Spans blocks) (apart : blocks.Pairwise HeapBlock.Apart)
    (filled : forall block, block ∈ blocks -> 0 < block.size.toNat)
    (fits : forall block, block ∈ blocks -> block.past < UInt64.size)
    {block : HeapBlock} (member : block ∈ blocks) :
    extent.start.toNat ≤ block.address.toNat ∧ block.past ≤ extent.stop.toNat := by
  refine ⟨spans.start_le block member, ?_⟩
  have room := fits extent.last spans.last_mem
  have size := filled block member
  have past : block.past = block.address.toNat + block.size.toNat := rfl
  have least : extent.last.address.toNat ≤ extent.last.past := Nat.le_add_right _ _
  have highest := spans.address_le member
  -- The last block lies behind every other one, since it begins behind it.
  have ends : block.past ≤ extent.last.past := by
    rcases spans.last_first with ⟨before, after, rfl, below, above⟩
    rcases List.pairwise_append.mp apart with ⟨-, later, across⟩
    have behind : block.Apart extent.last -> block.past ≤ extent.last.past := by
      rintro (before | behind)
      · omega
      · have own := filled extent.last spans.last_mem
        have past : extent.last.past =
            extent.last.address.toNat + extent.last.size.toNat := rfl
        omega
    rcases List.mem_append.mp member with early | late
    · exact behind (across block early extent.last List.mem_cons_self)
    · rcases List.mem_cons.mp late with rfl | late
      · exact Nat.le_refl _
      · exact behind ((List.pairwise_cons.mp later).1 block late).symm
  rw [stop_toNat]
  omega

/-- The bytes of such blocks fit between the ends of their extent. -/
theorem sum_sizes_le (spans : extent.Spans blocks) (apart : blocks.Pairwise HeapBlock.Apart)
    (filled : forall block, block ∈ blocks -> 0 < block.size.toNat)
    (fits : forall block, block ∈ blocks -> block.past < UInt64.size) :
    (blocks.map fun block => block.size.toNat).sum ≤
      extent.stop.toNat - extent.start.toNat :=
  HeapBlock.sum_sizes_le apart fun _ member => spans.contains apart filled fits member

end Spans

end HeapExtent
end MemoryProbe
