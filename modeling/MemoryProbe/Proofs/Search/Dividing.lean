import MemoryProbe.Proofs.Search.Cutting

namespace MemoryProbe

/-!
Into which blocks a region is divided.  Full blocks begin one block size apart for as long
as what is left is no shorter than a full block; the rest is the last block.  The blocks
are exactly those as long as the offset behind the last one is a word.  That offset is
formed although no block begins there, and it is the only sum that can fail.
-/

namespace BlockLayout

variable {layout : BlockLayout} {base : Address} {regionIndex low size : Nat}
  {blocks : List ReadBlock}

/-- How many blocks a region is divided into, if it has any. -/
def blockCount (layout : BlockLayout) (size : Nat) : Nat :=
  (size - layout.overlap.toNat) / layout.blockSize.toNat + 1

theorem blockCount_of_lt (short : size < layout.blockSize.toNat + layout.overlap.toNat) :
    layout.blockCount size = 1 := by
  have positive := layout.blockSize_pos
  have less : size - layout.overlap.toNat < layout.blockSize.toNat := by omega
  unfold blockCount
  rw [Nat.div_eq_of_lt less]

theorem blockCount_add (fits : layout.overlap.toNat ≤ size) :
    layout.blockCount (size + layout.blockSize.toNat) = layout.blockCount size + 1 := by
  unfold blockCount
  rw [Nat.sub_add_comm fits, Nat.add_div_right _ layout.blockSize_pos]

/-- Blocks for so many bytes from a place on. -/
inductive Laid (layout : BlockLayout) (regionIndex : Nat) :
    Nat -> Nat -> List ReadBlock -> Prop where
  | last {block : ReadBlock} {low size : Nat} (named : block.regionIndex = regionIndex)
      (begins : block.start.toNat = low) (whole : block.length.toNat = size) (some : 0 < size)
      (short : size < layout.blockSize.toNat + layout.overlap.toNat) :
      Laid layout regionIndex low size [block]
  | full {block : ReadBlock} {low size : Nat} {rest : List ReadBlock}
      (named : block.regionIndex = regionIndex) (begins : block.start.toNat = low)
      (long : block.length.toNat = layout.blockSize.toNat + layout.overlap.toNat)
      (fits : layout.overlap.toNat ≤ size)
      (later : Laid layout regionIndex (low + layout.blockSize.toNat) size rest) :
      Laid layout regionIndex low (size + layout.blockSize.toNat) (block :: rest)

namespace Laid

theorem head {block : ReadBlock} {rest : List ReadBlock}
    (laid : Laid layout regionIndex low size (block :: rest)) :
    block.regionIndex = regionIndex ∧ block.start.toNat = low := by
  cases laid with
  | last named begins => exact ⟨named, begins⟩
  | full named begins => exact ⟨named, begins⟩

theorem ne_nil (laid : Laid layout regionIndex low size blocks) : blocks ≠ [] := by
  cases laid <;> exact List.cons_ne_nil _ _

theorem length_eq (laid : Laid layout regionIndex low size blocks) :
    blocks.length = layout.blockCount size := by
  induction laid with
  | last named begins whole some short => rw [blockCount_of_lt short, List.length_singleton]
  | full named begins long fits later ih => rw [blockCount_add fits, <- ih, List.length_cons]

/-- The blocks from the one with a number on are laid for the bytes that are left there. -/
theorem drop (laid : Laid layout regionIndex low size blocks) {index : Nat}
    (inside : index < blocks.length) :
    Laid layout regionIndex (low + index * layout.blockSize.toNat)
      (size - index * layout.blockSize.toNat) (blocks.drop index) := by
  induction laid generalizing index with
  | last named begins whole some short =>
      rw [List.length_singleton, Nat.lt_one_iff] at inside
      subst inside
      simpa using Laid.last named begins whole some short
  | full named begins long fits later ih =>
      cases index with
      | zero => simpa using Laid.full named begins long fits later
      | succ index =>
          have behind := ih (Nat.lt_of_succ_lt_succ inside)
          rw [List.drop_succ_cons, Nat.succ_mul, Nat.add_sub_add_right,
            Nat.add_comm (index * _), <- Nat.add_assoc]
          exact behind

theorem at_index (laid : Laid layout regionIndex low size blocks) {index : Nat}
    {block : ReadBlock} (found : blocks[index]? = some block) :
    Laid layout regionIndex (low + index * layout.blockSize.toNat)
      (size - index * layout.blockSize.toNat) (block :: blocks.drop (index + 1)) := by
  rcases List.getElem?_eq_some_iff.mp found with ⟨inside, rfl⟩
  rw [<- List.drop_eq_getElem_cons inside]
  exact laid.drop inside

/-- Only the last block is not full. -/
theorem length_of_rest {block : ReadBlock} {rest : List ReadBlock}
    (laid : Laid layout regionIndex low size (block :: rest)) (more : rest ≠ []) :
    block.length.toNat = layout.blockSize.toNat + layout.overlap.toNat := by
  cases laid with
  | last => exact absurd rfl more
  | full named begins long fits later => exact long

theorem length_of_last {block : ReadBlock}
    (laid : Laid layout regionIndex low size [block]) :
    0 < block.length.toNat ∧
      block.length.toNat < layout.blockSize.toNat + layout.overlap.toNat ∧
      block.length.toNat = size := by
  cases laid with
  | last named begins whole some short => exact ⟨whole ▸ some, whole ▸ short, whole⟩
  | full named begins long fits later => exact absurd rfl later.ne_nil

/-- A block is at least as long as what is left, or full. -/
theorem overlap_le {block : ReadBlock} {rest : List ReadBlock}
    (laid : Laid layout regionIndex low size (block :: rest))
    (fits : layout.overlap.toNat ≤ size) :
    layout.overlap.toNat ≤ block.length.toNat := by
  cases laid with
  | last named begins whole some short => exact whole ▸ fits
  | full named begins long fits later => exact long ▸ Nat.le_add_left _ _

/-- What a full block and the next one share begins where the next one begins. -/
theorem shares {block next : ReadBlock} {rest : List ReadBlock}
    (laid : Laid layout regionIndex low size (block :: next :: rest)) (place : Nat) :
    block.Spans place 1 ∧ next.Spans place 1 <->
      next.start.toNat ≤ place ∧ place < next.start.toNat + layout.overlap.toNat := by
  cases laid with
  | full named begins long fits later =>
      have behind := later.head.2
      have reaches := later.overlap_le fits
      constructor
      · rintro ⟨⟨-, stop⟩, start, -⟩
        exact ⟨start, by omega⟩
      · rintro ⟨above, below⟩
        exact ⟨⟨by omega, by omega⟩, above, by omega⟩

/-- No block leaves the bytes that it is laid for. -/
theorem inside (laid : Laid layout regionIndex low size blocks) {block : ReadBlock}
    (member : block ∈ blocks) :
    block.regionIndex = regionIndex ∧ low ≤ block.start.toNat ∧
      block.start.toNat + block.length.toNat ≤ low + size := by
  induction laid with
  | last named begins whole some short =>
      rw [List.mem_singleton] at member
      subst member
      exact ⟨named, begins.ge, by rw [begins, whole]⟩
  | full named begins long fits later ih =>
      rcases List.mem_cons.mp member with rfl | behind
      · exact ⟨named, begins.ge, by omega⟩
      · rcases ih behind with ⟨named, above, below⟩
        exact ⟨named, by omega, by omega⟩

/-- A range that is at most one byte longer than the overlap lies whole in some block. -/
theorem covers (laid : Laid layout regionIndex low size blocks) {place length : Nat}
    (above : low ≤ place) (below : place + length ≤ low + size)
    (short : length ≤ layout.overlap.toNat + 1) :
    ∃ block, block ∈ blocks ∧ block.Spans place length := by
  induction laid with
  | @last block low size named begins whole some =>
      exact ⟨block, List.mem_singleton.mpr rfl, begins ▸ above, by omega⟩
  | @full block low size rest named begins long fits later ih =>
      by_cases early : place < low + layout.blockSize.toNat
      · exact ⟨block, List.mem_cons_self, begins ▸ above, by omega⟩
      · rcases ih (by omega) (by omega) with ⟨other, member, spans⟩
        exact ⟨other, List.mem_cons_of_mem block member, spans⟩

end Laid

/-- What a region of so many bytes from a place on is divided into. -/
structure Divides (layout : BlockLayout) (regionIndex low size : Nat)
    (blocks : List ReadBlock) : Prop where
  length_eq : blocks.length = layout.blockCount size
  regionIndex_eq : forall block, block ∈ blocks -> block.regionIndex = regionIndex
  start_eq : forall index block, blocks[index]? = some block ->
    block.start.toNat = low + index * layout.blockSize.toNat
  length_of_full : forall index block, blocks[index]? = some block ->
    index + 1 < blocks.length ->
    block.length.toNat = layout.blockSize.toNat + layout.overlap.toNat
  length_of_last : forall index block, blocks[index]? = some block ->
    index + 1 = blocks.length ->
    1 ≤ block.length.toNat ∧
      block.length.toNat ≤ layout.blockSize.toNat + layout.overlap.toNat - 1 ∧
      block.start.toNat + block.length.toNat = low + size
  /-- Neighbours have as many addresses in common as the overlap has bytes. -/
  shares : forall index block next, blocks[index]? = some block ->
    blocks[index + 1]? = some next -> forall place,
    block.Spans place 1 ∧ next.Spans place 1 <->
      next.start.toNat ≤ place ∧ place < next.start.toNat + layout.overlap.toNat
  inside : forall block, block ∈ blocks ->
    low ≤ block.start.toNat ∧ block.start.toNat + block.length.toNat ≤ low + size
  covers : forall place length, low ≤ place -> place + length ≤ low + size ->
    length ≤ layout.overlap.toNat + 1 -> ∃ block, block ∈ blocks ∧ block.Spans place length

theorem Laid.divides (laid : Laid layout regionIndex low size blocks) :
    Divides layout regionIndex low size blocks where
  length_eq := laid.length_eq
  regionIndex_eq _ member := (laid.inside member).1
  start_eq _ _ found := (laid.at_index found).head.2
  length_of_full index block found more := by
    apply (laid.at_index found).length_of_rest
    rw [<- List.length_pos_iff, List.length_drop]
    exact Nat.sub_pos_of_lt more
  length_of_last index block found ends := by
    have behind := laid.at_index found
    rw [ends, List.drop_length] at behind
    rcases behind.length_of_last with ⟨some, short, rest⟩
    exact ⟨some, Nat.le_sub_one_of_lt short, by have begins := behind.head.2; omega⟩
  shares index block next found behind := by
    have both := laid.at_index found
    rcases List.getElem?_eq_some_iff.mp behind with ⟨inside, rfl⟩
    rw [List.drop_eq_getElem_cons inside] at both
    exact both.shares
  inside _ member := (laid.inside member).2
  covers _ _ above below short := laid.covers above below short

section Cutting

variable {offset remaining start next : Word} {place : Address} {cut : List ReadBlock}

theorem cutFrom_of_full (some : remaining ≠ 0) (there : base.advance offset = .ok place)
    (later : Word.sum offset layout.blockSize = .ok next)
    (full : layout.fullLength ≤ remaining) :
    layout.cutFrom base regionIndex offset remaining cut =
      layout.cutFrom base regionIndex next (remaining - layout.blockSize)
        (⟨place, layout.fullLength, regionIndex⟩ :: cut) := by
  rw [cutFrom, if_neg some, there]
  dsimp only
  rw [later]
  exact if_pos full

theorem cutFrom_of_last (some : remaining ≠ 0) (there : base.advance offset = .ok place)
    (later : Word.sum offset layout.blockSize = .ok next)
    (short : ¬ layout.fullLength ≤ remaining) :
    layout.cutFrom base regionIndex offset remaining cut =
      .ok (⟨place, remaining, regionIndex⟩ :: cut).reverse := by
  rw [cutFrom, if_neg some, there]
  dsimp only
  rw [later]
  exact if_neg short

theorem cutFrom_of_error {kind : Fault} (some : remaining ≠ 0)
    (there : base.advance offset = .ok place)
    (wide : Word.sum offset layout.blockSize = .error kind) :
    layout.cutFrom base regionIndex offset remaining cut = .error kind := by
  rw [cutFrom, if_neg some, there]
  dsimp only
  rw [wide]

/-- The answers to cutting so many bytes from a place on, behind some blocks. -/
inductive Divided (layout : BlockLayout) (regionIndex low offset size : Nat)
    (cut : List ReadBlock) : Except Fault (List ReadBlock) -> Prop where
  | whole {rest : List ReadBlock}
      (fits : offset + layout.blockSize.toNat * layout.blockCount size < UInt64.size)
      (laid : Laid layout regionIndex low size rest) :
      Divided layout regionIndex low offset size cut (.ok (cut.reverse ++ rest))
  | wide (beyond : UInt64.size ≤ offset + layout.blockSize.toNat * layout.blockCount size) :
      Divided layout regionIndex low offset size cut (.error .overflow)

/-- One more full block in front: the offset behind the last block stays the same. -/
theorem Divided.full {low offset size : Nat} {block : ReadBlock}
    {answer : Except Fault (List ReadBlock)}
    (divided : Divided layout regionIndex (low + layout.blockSize.toNat)
      (offset + layout.blockSize.toNat) size (block :: cut) answer)
    (named : block.regionIndex = regionIndex) (begins : block.start.toNat = low)
    (long : block.length.toNat = layout.blockSize.toNat + layout.overlap.toNat)
    (fits : layout.overlap.toNat ≤ size) :
    Divided layout regionIndex low offset (size + layout.blockSize.toNat) cut answer := by
  have same : offset + layout.blockSize.toNat * layout.blockCount (size + layout.blockSize.toNat) =
      offset + layout.blockSize.toNat + layout.blockSize.toNat * layout.blockCount size := by
    rw [blockCount_add fits, Nat.mul_succ]
    omega
  cases divided with
  | whole inside laid =>
      rw [List.reverse_cons, List.append_assoc]
      exact .whole (same ▸ inside) (.full named begins long fits laid)
  | wide beyond => exact .wide (same ▸ beyond)

theorem divided_cutFrom (overlaps : 0 < layout.overlap.toNat) (some : 0 < remaining.toNat)
    (ends : base.toNat + offset.toNat + remaining.toNat < UInt64.size) :
    Divided layout regionIndex (base.toNat + offset.toNat) offset.toNat remaining.toNat cut
      (layout.cutFrom base regionIndex offset remaining cut) := by
  have long := layout.fullLength_toNat
  induction offset, remaining, cut using cutFrom.induct layout base regionIndex with
  | case1 offset cut => exact absurd some (Nat.lt_irrefl 0)
  | case2 offset remaining cut left kind failed =>
      have beyond := (Address.advance_eq_error_iff.mp failed).2
      omega
  | case3 offset remaining cut left place there kind failed =>
      rcases Word.sum_eq_error_iff.mp failed with ⟨rfl, beyond⟩
      rw [cutFrom_of_error left there failed]
      apply Divided.wide
      exact Nat.le_trans beyond (Nat.add_le_add_left
        (Nat.le_mul_of_pos_right _ (Nat.succ_pos _)) _)
  | case4 offset remaining cut left place there next later full ih =>
      have begins := Address.advance_eq_ok_iff.mp there
      have moved := Word.sum_eq_ok_iff.mp later
      have fits := UInt64.le_iff_toNat_le.mp full
      have rest : (remaining - layout.blockSize).toNat =
          remaining.toNat - layout.blockSize.toNat :=
        UInt64.toNat_sub_of_le _ _ (UInt64.le_iff_toNat_le.mpr (by omega))
      have size : remaining.toNat =
          (remaining - layout.blockSize).toNat + layout.blockSize.toNat := by omega
      have behind := ih (by omega) (by omega)
      rw [moved, <- Nat.add_assoc] at behind
      rw [cutFrom_of_full left there later full, size]
      exact behind.full rfl begins long (by omega)
  | case5 offset remaining cut left place there next later short =>
      have begins := Address.advance_eq_ok_iff.mp there
      have moved := Word.sum_eq_ok_iff.mp later
      have less : remaining.toNat < layout.blockSize.toNat + layout.overlap.toNat :=
        long ▸ Nat.lt_of_not_le fun full => short (UInt64.le_iff_toNat_le.mpr full)
      rw [cutFrom_of_last left there later short, List.reverse_cons]
      apply Divided.whole
      · rw [blockCount_of_lt less, Nat.mul_one, <- moved]
        exact next.toNat_lt
      · exact .last rfl begins rfl some less

end Cutting

theorem overlap_pos_of_make {granularity factor patternLength : Word}
    (made : make granularity factor patternLength = .ok layout) : 0 < layout.overlap.toNat := by
  have rounded := overlap_of_make made
  omega

variable {region : Region}

theorem split_of_empty (none : region.size.toNat = 0) :
    layout.split region regionIndex = .ok [] := by
  have zero : region.size = 0 := UInt64.toNat_inj.mp none
  rw [split, cutFrom, if_pos zero]
  rfl

theorem divided_split (overlaps : 0 < layout.overlap.toNat) (some : 0 < region.size.toNat)
    (ends : region.base.toNat + region.size.toNat < UInt64.size) :
    Divided layout regionIndex region.base.toNat 0 region.size.toNat []
      (layout.split region regionIndex) := by
  change Divided layout regionIndex (region.base.toNat + (0 : Word).toNat) (0 : Word).toNat
    region.size.toNat [] (layout.cutFrom region.base regionIndex 0 region.size [])
  exact divided_cutFrom overlaps some ends

theorem split_eq_error_iff {kind : Fault} (overlaps : 0 < layout.overlap.toNat)
    (ends : region.base.toNat + region.size.toNat < UInt64.size) :
    layout.split region regionIndex = .error kind <->
      kind = .overflow ∧ 1 ≤ region.size.toNat ∧
        2 ^ 64 ≤ layout.blockSize.toNat * layout.blockCount region.size.toNat := by
  rcases Nat.eq_zero_or_pos region.size.toNat with none | some
  · simp [split_of_empty none, none]
  · have divided : Divided layout regionIndex region.base.toNat 0 region.size.toNat []
        (layout.split region regionIndex) := divided_split overlaps some ends
    generalize layout.split region regionIndex = answer at divided
    cases divided with
    | whole fits laid =>
        rw [Nat.zero_add] at fits
        simp [Nat.not_le.mpr fits]
    | wide beyond =>
        rw [Nat.zero_add] at beyond
        simp only [Except.error.injEq]
        constructor
        · rintro rfl
          exact ⟨rfl, some, beyond⟩
        · rintro ⟨rfl, -⟩
          rfl

theorem exists_split_iff (overlaps : 0 < layout.overlap.toNat)
    (ends : region.base.toNat + region.size.toNat < UInt64.size) :
    (∃ blocks, layout.split region regionIndex = .ok blocks) <->
      region.size.toNat = 0 ∨
        layout.blockSize.toNat * layout.blockCount region.size.toNat < 2 ^ 64 := by
  cases answer : layout.split region regionIndex with
  | ok blocks =>
      refine iff_of_true ⟨blocks, rfl⟩ ?_
      by_contra refused
      rw [not_or, Nat.not_lt] at refused
      have failed : layout.split region regionIndex = .error .overflow :=
        (split_eq_error_iff overlaps ends).mpr
          ⟨rfl, Nat.pos_of_ne_zero refused.1, refused.2⟩
      rw [answer] at failed
      contradiction
  | error kind =>
      rcases (split_eq_error_iff overlaps ends).mp answer with ⟨-, some, beyond⟩
      simp only [reduceCtorEq, exists_false, false_iff]
      omega

section Plan

variable {regions : List Region}

theorem plan_eq_ok_iff :
    layout.plan regions = .ok blocks <->
      ∃ parts : List (List ReadBlock),
        regions.mapIdx (fun index region => layout.split region index) = parts.map Except.ok ∧
          blocks = parts.flatten := by
  constructor
  · intro planned
    rcases exists_parts_of_plan planned with ⟨parts, answered, joined⟩
    exact ⟨parts, List.mapIdx_eq_zipIdx_map.trans (mapM_eq_ok_iff.mp answered), joined⟩
  · rintro ⟨parts, answered, rfl⟩
    rw [List.mapIdx_eq_zipIdx_map] at answered
    rw [plan, mapM_eq_ok_iff.mpr answered]
    rfl

theorem exists_plan_iff :
    (∃ blocks, layout.plan regions = .ok blocks) <->
      forall index region, regions[index]? = some region ->
        ∃ cut, layout.split region index = .ok cut := by
  constructor
  · rintro ⟨blocks, planned⟩ index region found
    rcases exists_parts_of_plan planned with ⟨parts, answered, -⟩
    rcases exists_result_of_mapM answered (List.mk_mem_zipIdx_iff_getElem?.mpr found) with
      ⟨cut, -, split⟩
    exact ⟨cut, split⟩
  · intro total
    have each : forall entry, entry ∈ regions.zipIdx ->
        ∃ cut, layout.split entry.1 entry.2 = .ok cut := by
      rintro ⟨region, index⟩ member
      exact total index region (List.mk_mem_zipIdx_iff_getElem?.mp member)
    rcases exists_mapM each with ⟨parts, answered⟩
    exact ⟨parts.flatten, by rw [plan, answered]; rfl⟩

end Plan

/-- The blocks of a layout reach from the base of a region to its end.  They begin one block
size apart, are full but for the last, and share as many bytes with their neighbours as the
overlap has; no short range is cut by them.  A plan is the blocks of one region after the
other. -/
theorem split_divides_region {granularity factor patternLength : Word}
    (made : make granularity factor patternLength = .ok layout) :
    (forall (region : Region) (regionIndex : Nat), 1 ≤ region.size.toNat ->
      region.base.toNat + region.size.toNat < 2 ^ 64 ->
      layout.blockSize.toNat * layout.blockCount region.size.toNat < 2 ^ 64 ->
      ∃ blocks, layout.split region regionIndex = .ok blocks ∧
        layout.Divides regionIndex region.base.toNat region.size.toNat blocks) ∧
    (forall (region : Region) (regionIndex : Nat), region.size.toNat = 0 ->
      layout.split region regionIndex = .ok []) ∧
    forall regions blocks, layout.plan regions = .ok blocks <->
      ∃ parts : List (List ReadBlock),
        regions.mapIdx (fun index region => layout.split region index) = parts.map Except.ok ∧
        blocks = parts.flatten ∧
        forall (index : Nat) (part : List ReadBlock), parts[index]? = some part ->
          forall block, block ∈ part -> block.regionIndex = index := by
  refine ⟨?_, fun region regionIndex none => split_of_empty none, ?_⟩
  · intro region regionIndex some ends fits
    have overlaps := overlap_pos_of_make made
    have divided : Divided layout regionIndex region.base.toNat 0 region.size.toNat []
        (layout.split region regionIndex) := divided_split overlaps some ends
    generalize layout.split region regionIndex = answer at divided
    cases divided with
    | whole inside laid => exact ⟨_, rfl, laid.divides⟩
    | wide beyond =>
        rw [Nat.zero_add] at beyond
        exact absurd fits (Nat.not_lt.mpr beyond)
  · intro regions blocks
    rw [plan_eq_ok_iff]
    refine exists_congr fun parts => and_congr_right fun answered => ?_
    refine (and_iff_left ?_).symm
    intro index part found block member
    have here := congrArg (fun answers => answers[index]?) answered
    simp only [List.getElem?_mapIdx, List.getElem?_map, found, Option.map_some] at here
    rcases Option.map_eq_some_iff.mp here with ⟨region, -, split⟩
    rcases (split_cuts split).within block member with none | within
    · exact absurd none List.not_mem_nil
    · exact within.regionIndex_eq

/-- Of blocks of eight bytes with four times as much overlap, three reach over fifty bytes. -/
theorem split_divides_region_of_narrow :
    ∃ blocks, (⟨8, 32, by decide, by decide⟩ : BlockLayout).split
        (Region.committedPrivate ⟨4096⟩ 50 Protection.readable) 7 = .ok blocks ∧
      blocks.length = 3 ∧
      forall block, blocks[2]? = some block ->
        block.start.toNat = 4112 ∧ block.length.toNat ≤ 39 ∧
          block.start.toNat + block.length.toNat = 4146 := by
  have made : make 8 1 20 = .ok ⟨8, 32, by decide, by decide⟩ := rfl
  rcases (split_divides_region made).1 (Region.committedPrivate ⟨4096⟩ 50 Protection.readable) 7
    (by decide) (by decide) (by decide) with ⟨blocks, answered, divides⟩
  have three : blocks.length = 3 := divides.length_eq
  refine ⟨blocks, answered, three, fun block found => ?_⟩
  have last := divides.length_of_last 2 block found three.symm
  exact ⟨divides.start_eq 2 block found, last.2⟩

/-- The offset behind the last block of a region is no further up than one block size more
than its blocks need. -/
theorem blockSize_mul_blockCount_le (layout : BlockLayout) (size : Nat) :
    layout.blockSize.toNat * layout.blockCount size ≤
      size - layout.overlap.toNat + layout.blockSize.toNat := by
  unfold blockCount
  rw [Nat.mul_succ]
  exact Nat.add_le_add_right (Nat.mul_div_le _ _) _

/-- Of all sums and differences that dividing regions takes, only one can leave the range of
a word: the offset at which one block more would begin, behind the last one of a region.
Regions can be planned exactly if it is a word for each of them; that it is can fail only
for a region to whose size one block size cannot be added. -/
theorem split_faults_past_last_block {granularity factor patternLength : Word}
    (made : make granularity factor patternLength = .ok layout) :
    Word.sum layout.blockSize layout.overlap = .ok layout.fullLength ∧
    (forall remaining, layout.fullLength ≤ remaining ->
      Word.difference remaining layout.blockSize = .ok (remaining - layout.blockSize)) ∧
    (forall (region : Region) (regionIndex : Nat) (kind : Fault),
      region.base.toNat + region.size.toNat < 2 ^ 64 ->
      (layout.split region regionIndex = .error kind <->
        kind = .overflow ∧ 1 ≤ region.size.toNat ∧
          2 ^ 64 ≤ layout.blockSize.toNat * layout.blockCount region.size.toNat)) ∧
    (forall regions : List Region,
      (forall region, region ∈ regions -> region.base.toNat + region.size.toNat < 2 ^ 64) ->
      ((∃ blocks, layout.plan regions = .ok blocks) <->
        forall region, region ∈ regions -> region.size.toNat = 0 ∨
          layout.blockSize.toNat * layout.blockCount region.size.toNat < 2 ^ 64)) ∧
    forall size, size + layout.blockSize.toNat < 2 ^ 64 ->
      layout.blockSize.toNat * layout.blockCount size < 2 ^ 64 := by
  have overlaps := overlap_pos_of_make made
  refine ⟨Word.sum_eq_ok_iff.mpr layout.fullLength_toNat, ?_, ?_, ?_, ?_⟩
  · intro remaining full
    have fits := UInt64.le_iff_toNat_le.mp full
    have less := layout.blockSize_le_fullLength
    apply Word.difference_eq_ok_iff.mpr
    rw [UInt64.toNat_sub_of_le _ _ (UInt64.le_iff_toNat_le.mpr (less.trans fits))]
    omega
  · exact fun region regionIndex kind ends => split_eq_error_iff overlaps ends
  · intro regions ends
    rw [exists_plan_iff]
    constructor
    · intro total region member
      rcases List.getElem?_of_mem member with ⟨index, found⟩
      exact (exists_split_iff overlaps (ends region member)).mp (total index region found)
    · intro fits index region found
      have member := List.mem_of_getElem? found
      exact (exists_split_iff overlaps (ends region member)).mpr (fits region member)
  · intro size room
    have bound := layout.blockSize_mul_blockCount_le size
    omega

/-- Blocks of half of all addresses. -/
def halfLayout : BlockLayout := ⟨0x8000000000000000, 16, by decide, by decide⟩

/-- A region as long as one such block with its overlap. -/
def halfRegion : Region :=
  Region.committedPrivate ⟨0x1000⟩ 0x8000000000000010 Protection.readable

/-- One byte less makes one block, which needs no second one. -/
theorem split_faults_past_last_block_of_half :
    halfLayout.split halfRegion 0 = .error .overflow ∧
    ∃ blocks, halfLayout.plan [{ halfRegion with size := 0x800000000000000F }] = .ok blocks := by
  have made : make 0x1000 0x8000000000000 1 = .ok halfLayout := rfl
  rcases split_faults_past_last_block made with ⟨-, -, faults, plans, -⟩
  refine ⟨(faults halfRegion 0 .overflow (by decide)).mpr ⟨rfl, by decide, by decide⟩, ?_⟩
  apply (plans [{ halfRegion with size := 0x800000000000000F }] (by simp [halfRegion]; decide)).mpr
  intro region member
  rw [List.mem_singleton] at member
  subst member
  exact .inr (by decide)

/-- The layout is accepted and the region ends far below the last address, yet it cannot be
divided. -/
theorem split_faults_on_half_of_space :
    make 0x1000 0x8000000000000 1 = .ok halfLayout ∧
    halfRegion.base.toNat + halfRegion.size.toNat < 2 ^ 64 ∧
    halfLayout.plan [halfRegion] = .error .overflow := by
  refine ⟨rfl, by decide, ?_⟩
  have last : halfLayout.cutFrom ⟨0x1000⟩ 0 0x8000000000000000 0x10
      [⟨⟨0x1000⟩, 0x8000000000000010, 0⟩] = .error .overflow :=
    cutFrom_of_error (by decide) rfl rfl
  have whole : halfLayout.split halfRegion 0 = .error .overflow := by
    rw [split, cutFrom_of_full (by decide) rfl rfl (by decide)]
    exact last
  rw [plan, List.zipIdx_singleton, List.mapM_cons, whole]
  rfl

end BlockLayout
end MemoryProbe
