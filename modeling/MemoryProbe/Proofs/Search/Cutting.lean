import Mathlib
import MemoryProbe.Proofs.Mapping
import MemoryProbe.Proofs.Word.Alignment
import MemoryProbe.Search.Layout

namespace MemoryProbe

/-!
How regions are cut.  Every block lies inside its region, and every range of a
region that is at most one byte longer than the overlap lies whole in some block.
-/

/-- The greater of two words is the least word that is above both. -/
instance : Std.LawfulOrderMax Word := by
  apply Std.LawfulOrderMax.of_max_le_iff
  · intro left right bound
    change (if left ≤ right then right else left) ≤ bound <-> _
    simp only [UInt64.le_iff_toNat_le]
    split <;> omega
  · intro left right
    change (if left ≤ right then right else left) = left ∨
      (if left ≤ right then right else left) = right
    by_cases below : left ≤ right
    · exact Or.inr (if_pos below)
    · exact Or.inl (if_neg below)

theorem le_longestBlock {blocks : List ReadBlock} {block : ReadBlock}
    (member : block ∈ blocks) :
    block.length.toNat ≤ ((longestBlock? blocks).getD 0).toNat := by
  unfold longestBlock?
  cases longest : (blocks.map ReadBlock.length).max? with
  | none =>
      rw [List.max?_eq_none_iff, List.map_eq_nil_iff] at longest
      rw [longest] at member
      exact absurd member List.not_mem_nil
  | some greatest =>
      have bounds := (List.max?_eq_some_iff.mp longest).2
      exact UInt64.le_iff_toNat_le.mp (bounds _ (List.mem_map_of_mem member))

theorem longestBlock_le {blocks : List ReadBlock} {limit longest : Word}
    (fits : forall block, block ∈ blocks -> block.length ≤ limit)
    (greatest : longestBlock? blocks = some longest) : longest ≤ limit := by
  rcases List.mem_map.mp (List.max?_mem greatest) with ⟨block, member, rfl⟩
  exact fits block member

/-- A block of a region lies between two addresses. -/
structure ReadBlock.Within (block : ReadBlock) (regionIndex low high : Nat) : Prop where
  regionIndex_eq : block.regionIndex = regionIndex
  low_le : low ≤ block.start.toNat
  le_high : block.start.toNat + block.length.toNat ≤ high

/-- A block holds a range of addresses. -/
structure ReadBlock.Spans (block : ReadBlock) (place length : Nat) : Prop where
  start_le : block.start.toNat ≤ place
  le_stop : place + length ≤ block.start.toNat + block.length.toNat

namespace BlockLayout

variable {layout : BlockLayout} {base : Address} {regionIndex : Nat}

/-- A layout is made for some bytes, and its overlap is their number, rounded up. -/
theorem overlap_of_make {granularity factor patternLength : Word}
    (made : make granularity factor patternLength = .ok layout) :
    0 < patternLength.toNat ∧ layout.overlap.toNat = (patternLength.toNat + 15) / 16 * 16 := by
  unfold make at made
  split at made
  · contradiction
  rename_i some
  refine ⟨Nat.pos_of_ne_zero fun none => some (UInt64.toNat_inj.mp none), ?_⟩
  split at made
  · contradiction
  split at made
  · contradiction
  split at made
  · contradiction
  cases rounded : Word.alignUp patternLength overlapAlignment with
  | error kind =>
      rw [rounded] at made
      contradiction
  | ok overlap =>
      rw [rounded] at made
      change (if h : _ then _ else _) = Except.ok layout at made
      split at made
      · cases made
        rw [Word.toNat_of_alignUp ⟨4, rfl⟩ rounded, Nat.ceilDiv_eq_add_pred_div, Nat.mul_comm]
        rfl
      · contradiction

/-- A layout that was made for a length has at least that much overlap, and less than
sixteen bytes more. -/
theorem le_overlap_of_make {granularity factor patternLength : Word}
    (made : make granularity factor patternLength = .ok layout) :
    patternLength.toNat ≤ layout.overlap.toNat ∧
      layout.overlap.toNat < patternLength.toNat + 16 := by
  have rounded := overlap_of_make made
  omega

theorem fullLength_toNat (layout : BlockLayout) :
    layout.fullLength.toNat = layout.blockSize.toNat + layout.overlap.toNat := by
  unfold fullLength
  rw [UInt64.toNat_add, Nat.mod_eq_of_lt layout.full_lt]

/-- What is cut behind some blocks keeps those, lies in what remained, and holds each
short range of it. -/
structure Cuts (layout : BlockLayout) (regionIndex low high : Nat)
    (cut blocks : List ReadBlock) : Prop where
  keeps : forall block, block ∈ cut -> block ∈ blocks
  within : forall block, block ∈ blocks -> block ∈ cut ∨ block.Within regionIndex low high
  covers : forall place length, low ≤ place -> place + length ≤ high -> 0 < length ->
    length ≤ layout.overlap.toNat + 1 ->
    ∃ block, block ∈ blocks ∧ block.regionIndex = regionIndex ∧ block.Spans place length

section Cuts

variable {low high : Nat} {cut blocks : List ReadBlock} {block : ReadBlock}

theorem Cuts.empty (layout : BlockLayout) (regionIndex low : Nat) (cut : List ReadBlock) :
    Cuts layout regionIndex low low cut cut.reverse := by
  refine ⟨fun block member => List.mem_reverse.mpr member,
    fun block member => Or.inl (List.mem_reverse.mp member), ?_⟩
  intro place length above below positive short
  omega

/-- The last block reaches to the end of what remained. -/
theorem Cuts.last (layout : BlockLayout) (within : block.regionIndex = regionIndex)
    (begins : block.start.toNat = low)
    (ends : block.start.toNat + block.length.toNat = high) :
    Cuts layout regionIndex low high cut (block :: cut).reverse := by
  refine ⟨?_, ?_, ?_⟩
  · intro other member
    exact List.mem_reverse.mpr (List.mem_cons_of_mem _ member)
  · intro other member
    rcases List.mem_cons.mp (List.mem_reverse.mp member) with rfl | old
    · exact Or.inr ⟨within, Nat.le_of_eq begins.symm, Nat.le_of_eq ends⟩
    · exact Or.inl old
  · intro place length above below positive short
    refine ⟨block, List.mem_reverse.mpr List.mem_cons_self, within, ?_, ?_⟩
    · omega
    · omega

/-- A full block is followed by what is cut from one block size later on. -/
theorem Cuts.full {next : Nat} (rest : Cuts layout regionIndex next high (block :: cut) blocks)
    (within : block.regionIndex = regionIndex) (begins : block.start.toNat = low)
    (long : block.length.toNat = layout.blockSize.toNat + layout.overlap.toNat)
    (moved : next = low + layout.blockSize.toNat)
    (fits : low + layout.blockSize.toNat + layout.overlap.toNat ≤ high) :
    Cuts layout regionIndex low high cut blocks := by
  refine ⟨fun other member => rest.keeps other (List.mem_cons_of_mem _ member), ?_, ?_⟩
  · intro other member
    rcases rest.within other member with earlier | inside
    · rcases List.mem_cons.mp earlier with rfl | old
      · exact Or.inr ⟨within, by omega, by omega⟩
      · exact Or.inl old
    · have above := inside.low_le
      exact Or.inr ⟨inside.regionIndex_eq, by omega, inside.le_high⟩
  · intro place length above below positive short
    -- A range that begins below the next block ends in this one.
    by_cases early : place < next
    · refine ⟨block, rest.keeps _ List.mem_cons_self, within, ?_, ?_⟩
      · omega
      · omega
    · exact rest.covers place length (by omega) below positive short

end Cuts

theorem cutFrom_cuts {offset remaining : Word} {cut blocks : List ReadBlock}
    (answered : layout.cutFrom base regionIndex offset remaining cut = .ok blocks) :
    Cuts layout regionIndex (base.toNat + offset.toNat)
      (base.toNat + offset.toNat + remaining.toNat) cut blocks := by
  induction offset, remaining, cut using cutFrom.induct layout base regionIndex
      generalizing blocks with
  | case1 offset cut =>
      unfold cutFrom at answered
      rw [if_pos rfl] at answered
      cases answered
      exact Cuts.empty layout regionIndex (base.toNat + offset.toNat) cut
  | case2 offset remaining cut some kind failed =>
      unfold cutFrom at answered
      rw [if_neg some, failed] at answered
      contradiction
  | case3 offset remaining cut some start there kind failed =>
      unfold cutFrom at answered
      rw [if_neg some, there] at answered
      dsimp only at answered
      rw [failed] at answered
      contradiction
  | case4 offset remaining cut some start there next later full ih =>
      unfold cutFrom at answered
      rw [if_neg some, there] at answered
      dsimp only at answered
      rw [later] at answered
      dsimp only at answered
      rw [if_pos full] at answered
      have begins := Address.advance_eq_ok_iff.mp there
      have moved := Word.sum_eq_ok_iff.mp later
      have long := layout.fullLength_toNat
      have fits := UInt64.le_iff_toNat_le.mp full
      have left : (remaining - layout.blockSize).toNat =
          remaining.toNat - layout.blockSize.toNat :=
        UInt64.toNat_sub_of_le _ _ (UInt64.le_iff_toNat_le.mpr (by omega))
      have same : base.toNat + next.toNat + (remaining - layout.blockSize).toNat =
          base.toNat + offset.toNat + remaining.toNat := by omega
      exact (same ▸ ih answered).full rfl begins long (by omega) (by omega)
  | case5 offset remaining cut some start there next later partly =>
      unfold cutFrom at answered
      rw [if_neg some, there] at answered
      dsimp only at answered
      rw [later] at answered
      dsimp only at answered
      rw [if_neg partly] at answered
      cases answered
      have begins := Address.advance_eq_ok_iff.mp there
      exact Cuts.last layout rfl begins (by rw [begins])

/-- A region that was split lies in its blocks, and they in it. -/
theorem split_cuts {region : Region} {blocks : List ReadBlock}
    (answered : layout.split region regionIndex = .ok blocks) :
    Cuts layout regionIndex region.base.toNat (region.base.toNat + region.size.toNat) []
      blocks :=
  cutFrom_cuts answered

section Plan

variable {regions : List Region} {blocks : List ReadBlock}

theorem exists_parts_of_plan (planned : layout.plan regions = .ok blocks) :
    ∃ parts, (regions.zipIdx.mapM fun entry => layout.split entry.1 entry.2) = .ok parts ∧
      blocks = parts.flatten := by
  unfold plan at planned
  cases cut : regions.zipIdx.mapM fun entry => layout.split entry.1 entry.2 with
  | error kind =>
      rw [cut] at planned
      contradiction
  | ok parts =>
      rw [cut] at planned
      cases planned
      exact ⟨parts, rfl, rfl⟩

/-- A planned block was cut from a region, and names it. -/
theorem exists_split_of_plan (planned : layout.plan regions = .ok blocks) {block : ReadBlock}
    (member : block ∈ blocks) :
    ∃ index region cut, regions[index]? = some region ∧
      layout.split region index = .ok cut ∧ block ∈ cut := by
  rcases exists_parts_of_plan planned with ⟨parts, answered, rfl⟩
  rcases List.mem_flatten.mp member with ⟨cut, among, here⟩
  rcases exists_entry_of_mapM answered among with ⟨⟨region, index⟩, listed, split⟩
  exact ⟨index, region, cut, List.mk_mem_zipIdx_iff_getElem?.mp listed, split, here⟩

/-- All blocks of a region are planned. -/
theorem exists_split_of_region (planned : layout.plan regions = .ok blocks) {region : Region}
    (member : region ∈ regions) :
    ∃ index cut, layout.split region index = .ok cut ∧
      forall block, block ∈ cut -> block ∈ blocks := by
  rcases exists_parts_of_plan planned with ⟨parts, answered, rfl⟩
  rcases List.getElem?_of_mem member with ⟨index, found⟩
  rcases exists_result_of_mapM answered (List.mk_mem_zipIdx_iff_getElem?.mpr found) with
    ⟨cut, among, split⟩
  exact ⟨index, cut, split, fun block here => List.mem_flatten.mpr ⟨cut, among, here⟩⟩

/-- Every planned block lies in the region that it names. -/
theorem exists_region_of_plan (planned : layout.plan regions = .ok blocks)
    {block : ReadBlock} (member : block ∈ blocks) :
    ∃ region, regions[block.regionIndex]? = some region ∧
      region.base.toNat ≤ block.start.toNat ∧
      block.start.toNat + block.length.toNat ≤ region.base.toNat + region.size.toNat := by
  rcases exists_split_of_plan planned member with ⟨index, region, cut, found, split, inside⟩
  rcases (split_cuts split).within block inside with none | within
  · exact absurd none List.not_mem_nil
  · exact ⟨region, within.regionIndex_eq ▸ found, within.low_le, within.le_high⟩

/-- Every short range of a planned region lies whole in a block. -/
theorem exists_block_of_range (planned : layout.plan regions = .ok blocks)
    {region : Region} (member : region ∈ regions) {place length : Nat}
    (low : region.base.toNat ≤ place)
    (high : place + length ≤ region.base.toNat + region.size.toNat)
    (positive : 0 < length) (short : length ≤ layout.overlap.toNat + 1) :
    ∃ block, block ∈ blocks ∧ block.Spans place length := by
  rcases exists_split_of_region planned member with ⟨index, cut, split, inside⟩
  rcases (split_cuts split).covers place length low high positive short with
    ⟨block, here, -, spans⟩
  exact ⟨block, inside block here, spans⟩

end Plan

end BlockLayout
end MemoryProbe
