import Mathlib
import MemoryProbe.Heap.Chunk

namespace MemoryProbe

/-!
The walk along the headers of a heap.  The memory may answer anything, and may answer a
later read otherwise than an earlier one.  Each step of a walk is one of four, and by
induction on the steps the walk stays inside the heap, reads no header twice, and tells of
each block whether the header behind it was read and says that the block is in use.
-/

/-- The read of that number answers the size word of a block in full. -/
def Target.Tells (target : Target) (reads block : Nat) (sizeWord : Word) : Prop :=
  ∃ (address : Address) (bytes : List UInt8), address.toNat = block + 8 ∧
    target.read reads address 8 = .ok bytes ∧ bytes.length = 8 ∧
    Chunk.littleEndian bytes = sizeWord.toNat

/-- The place behind a block. -/
def HeapBlock.past (block : HeapBlock) : Nat :=
  block.address.toNat + block.size.toNat

/-- A read tells one size word only. -/
theorem Target.Tells.unique {target : Target} {reads block : Nat} {first second : Word}
    (tells : target.Tells reads block first) (again : target.Tells reads block second) :
    first = second := by
  rcases tells with ⟨address, bytes, place, answered, -, value⟩
  rcases again with ⟨other, others, same, repeated, -, equal⟩
  have one : address = other :=
    Address.ext (UInt64.toNat_inj.mp (place.trans same.symm))
  subst one
  cases answered.symm.trans repeated
  exact UInt64.toNat_inj.mp (value.symm.trans equal)

namespace Chunk

/-- A block has a possible size in a heap, and ends at `stop`. -/
structure Sized (block heapStop sizeWord stop : Word) : Prop where
  stop_eq : stop.toNat = block.toNat + (statedSize sizeWord).toNat
  least : 32 ≤ (statedSize sizeWord).toNat
  aligned : 16 ∣ (statedSize sizeWord).toNat
  inside : stop.toNat ≤ heapStop.toNat

/-- The header at a place lies in the heap, the read of that number tells its size word,
and the word says that the block before is in use. -/
def MarkedInUse (target : Target) (heapStop : Word) (reads place : Nat) : Prop :=
  place + 16 ≤ heapStop.toNat ∧
    ∃ next, target.Tells reads place next ∧ previousInUse next = true

variable {target : Target} {reads : Nat} {block heapStop sizeWord stop : Word}

theorem blockStop?_eq_some_iff :
    blockStop? block heapStop sizeWord = some stop <->
      Sized block heapStop sizeWord stop := by
  have least : leastSize ≤ statedSize sizeWord <-> 32 ≤ (statedSize sizeWord).toNat :=
    UInt64.le_iff_toNat_le
  have aligned : statedSize sizeWord % alignment = 0 <->
      16 ∣ (statedSize sizeWord).toNat := by
    rw [<- UInt64.toNat_inj, UInt64.toNat_mod, Nat.dvd_iff_mod_eq_zero]
    rfl
  unfold blockStop?
  simp only [Option.filter_eq_some_iff, Word.add?_eq_some_iff, Bool.and_eq_true,
    decide_eq_true_eq, beq_iff_eq, least, aligned, UInt64.le_iff_toNat_le]
  constructor
  · rintro ⟨ends, ⟨large, even⟩, inside⟩
    exact ⟨ends, large, even, inside⟩
  · rintro ⟨ends, large, even, inside⟩
    exact ⟨ends, ⟨large, even⟩, inside⟩

theorem Sized.past_eq (sized : Sized block heapStop sizeWord stop)
    {flags : BlockFlags} :
    HeapBlock.past ⟨⟨block⟩, statedSize sizeWord, flags⟩ = stop.toNat :=
  sized.stop_eq.symm

theorem headerFits_iff :
    headerFits block heapStop = true <-> block.toNat + 16 ≤ heapStop.toNat := by
  have size : headerSize.toNat = 16 := rfl
  have bound : heapStop.toNat < UInt64.size := heapStop.toNat_lt
  unfold headerFits
  cases past : Word.add? block headerSize with
  | none =>
      have wide := Word.add?_eq_none_iff.mp past
      simp only [Option.any_none, Bool.false_eq_true, false_iff]
      omega
  | some stop =>
      have sum := Word.add?_eq_some_iff.mp past
      rw [Option.any_some, decide_eq_true_eq, UInt64.le_iff_toNat_le, sum, size]

theorem littleEndian_lt (bytes : List UInt8) : littleEndian bytes < 256 ^ bytes.length := by
  induction bytes with
  | nil => exact Nat.one_pos
  | cons byte rest ih =>
      have small := byte.toNat_lt
      rw [littleEndian, List.length_cons, Nat.pow_succ]
      omega

/-! ## One read -/

/-- A read that tells a size word is the only one that is made for it. -/
theorem readSize_of_tells (tells : target.Tells reads block.toNat sizeWord) :
    ∃ place : Address, place.toNat = block.toNat + 8 ∧
      readSize target reads block = (.ok sizeWord, [place]) := by
  rcases tells with ⟨place, bytes, there, answered, whole, value⟩
  have sum : Word.add? block wordSize = some place.value := Word.add?_eq_some_iff.mpr there
  have read : target.read reads ⟨place.value⟩ wordSize.toNat = .ok bytes := answered
  have same : UInt64.ofNat (littleEndian bytes) = sizeWord := by
    rw [value]
    exact UInt64.ofNat_toNat
  refine ⟨place, there, ?_⟩
  unfold readSize
  rw [sum]
  dsimp only
  rw [read]
  dsimp only
  rw [if_pos (show bytes.length = wordSize.toNat from whole), same]

/-- A size word that is known was told. -/
theorem tells_of_readSize (known : (readSize target reads block).1 = .ok sizeWord) :
    target.Tells reads block.toNat sizeWord := by
  unfold readSize at known
  split at known
  · contradiction
  · rename_i place sum
    split at known
    · contradiction
    · rename_i bytes answered
      split at known
      · rename_i whole
        have small : littleEndian bytes < UInt64.size := by
          have bounded := littleEndian_lt bytes
          rw [whole] at bounded
          exact bounded
        cases known
        exact ⟨⟨place⟩, bytes, Word.add?_eq_some_iff.mp sum, answered, whole,
          (UInt64.toNat_ofNat_of_lt' small).symm⟩
      · contradiction

/-- A size word takes one read, whatever comes of it, unless it would lie beyond the end
of all memory. -/
theorem readSize_places (target : Target) (reads : Nat) (block : Word) :
    (UInt64.size ≤ block.toNat + 8 ∧ (readSize target reads block).2 = []) ∨
      ∃ place : Address, place.toNat = block.toNat + 8 ∧
        (readSize target reads block).2 = [place] := by
  unfold readSize
  cases sum : Word.add? block wordSize with
  | none => exact Or.inl ⟨Word.add?_eq_none_iff.mp sum, rfl⟩
  | some place =>
      refine Or.inr ⟨⟨place⟩, Word.add?_eq_some_iff.mp sum, ?_⟩
      dsimp only
      split
      · rfl
      · split <;> rfl

/-! ## The steps of a walk -/

/-- The way of a walk from a block whose size word is known, after some reads: the blocks
that it gives and the places that it reads. -/
inductive Walked (target : Target) (heapStop : Word) :
    Nat -> Word -> Word -> List HeapBlock -> List Address -> Prop where
  /-- The block has no possible size. -/
  | halts {reads : Nat} {block sizeWord : Word}
    (unsized : forall stop, ¬ Sized block heapStop sizeWord stop) :
    Walked target heapStop reads block sizeWord [] []
  /-- Behind the block is no room for a header. -/
  | ends {reads : Nat} {block sizeWord stop : Word}
    (sized : Sized block heapStop sizeWord stop)
    (outside : heapStop.toNat < stop.toNat + 16) :
    Walked target heapStop reads block sizeWord
      [⟨⟨block⟩, statedSize sizeWord, BlockFlags.unused⟩] []
  /-- The header behind the block cannot be read. -/
  | untold {reads : Nat} {block sizeWord stop : Word} {place : Address}
    (sized : Sized block heapStop sizeWord stop)
    (fits : stop.toNat + 16 ≤ heapStop.toNat) (there : place.toNat = stop.toNat + 8)
    (silent : forall next, ¬ target.Tells reads stop.toNat next) :
    Walked target heapStop reads block sizeWord
      [⟨⟨block⟩, statedSize sizeWord, BlockFlags.unused⟩] [place]
  /-- The header behind the block tells the next size word. -/
  | told {reads : Nat} {block sizeWord stop next : Word} {place : Address}
    {blocks : List HeapBlock} {places : List Address}
    (sized : Sized block heapStop sizeWord stop)
    (fits : stop.toNat + 16 ≤ heapStop.toNat) (there : place.toNat = stop.toNat + 8)
    (tells : target.Tells reads stop.toNat next)
    (rest : Walked target heapStop (reads + 1) stop next blocks places) :
    Walked target heapStop reads block sizeWord
      (⟨⟨block⟩, statedSize sizeWord, usage (previousInUse next)⟩ :: blocks)
      (place :: places)

theorem walked_walkFrom (target : Target) (reads : Nat) (block heapStop sizeWord : Word) :
    Walked target heapStop reads block sizeWord
      (walkFrom target reads block heapStop sizeWord).1
      (walkFrom target reads block heapStop sizeWord).2 := by
  fun_induction walkFrom target reads block heapStop sizeWord with
  | case1 reads block sizeWord unsized =>
      refine .halts fun stop sized => ?_
      rw [blockStop?_eq_some_iff.mpr sized] at unsized
      contradiction
  | case2 reads block sizeWord stop bounded entry fits next places read rest ih =>
      have tells : target.Tells reads stop.toNat next := tells_of_readSize (by rw [read])
      rcases readSize_of_tells tells with ⟨place, there, only⟩
      cases read.symm.trans only
      exact .told (blockStop?_eq_some_iff.mp bounded) (headerFits_iff.mp fits) there tells ih
  | case3 reads block sizeWord stop bounded entry fits cause places read =>
      have sized := blockStop?_eq_some_iff.mp bounded
      have inside := headerFits_iff.mp fits
      have limit : heapStop.toNat < UInt64.size := heapStop.toNat_lt
      rcases readSize_places target reads stop with ⟨wide, -⟩ | ⟨place, there, only⟩
      · omega
      · rw [read] at only
        cases only
        refine .untold sized inside there fun next tells => ?_
        rcases readSize_of_tells tells with ⟨_, -, known⟩
        cases read.symm.trans known
  | case4 reads block sizeWord stop bounded entry outside =>
      refine .ends (blockStop?_eq_some_iff.mp bounded) ?_
      exact Nat.lt_of_not_le fun fits => outside (headerFits_iff.mpr fits)

namespace Walked

variable {blocks : List HeapBlock} {places : List Address}

/-- The first block is the one that the walk begins at. -/
theorem head_address (walked : Walked target heapStop reads block sizeWord blocks places)
    {first : HeapBlock} (begins : blocks.head? = some first) : first.address = ⟨block⟩ := by
  cases walked <;> cases begins <;> rfl

/-- Each block begins where the one before ends. -/
theorem isChain (walked : Walked target heapStop reads block sizeWord blocks places) :
    blocks.IsChain fun earlier later => later.address.toNat = earlier.past := by
  induction walked with
  | halts unsized => exact .nil
  | ends sized outside => exact .singleton _
  | untold sized fits there silent => exact .singleton _
  | @told _ _ _ _ _ _ blocks _ sized fits there tells rest ih =>
      cases blocks with
      | nil => exact .singleton _
      | cons later others =>
          refine List.isChain_cons_cons.mpr ⟨?_, ih⟩
          rw [rest.head_address rfl]
          exact sized.stop_eq

/-- Every block has a possible size and ends inside the heap. -/
theorem bounds (walked : Walked target heapStop reads block sizeWord blocks places)
    {found : HeapBlock} (member : found ∈ blocks) :
    32 ≤ found.size.toNat ∧ 16 ∣ found.size.toNat ∧ found.past ≤ heapStop.toNat := by
  have own {block sizeWord stop : Word} {flags : BlockFlags}
      (sized : Sized block heapStop sizeWord stop) :
      32 ≤ (statedSize sizeWord).toNat ∧ 16 ∣ (statedSize sizeWord).toNat ∧
        HeapBlock.past ⟨⟨block⟩, statedSize sizeWord, flags⟩ ≤ heapStop.toNat :=
    ⟨sized.least, sized.aligned, sized.past_eq ▸ sized.inside⟩
  induction walked with
  | halts unsized => exact absurd member List.not_mem_nil
  | ends sized outside =>
      rw [List.mem_singleton.mp member]
      exact own sized
  | untold sized fits there silent =>
      rw [List.mem_singleton.mp member]
      exact own sized
  | told sized fits there tells rest ih =>
      rcases List.mem_cons.mp member with rfl | later
      · exact own sized
      · exact ih later

/-- The blocks take at least thirty-two bytes each of what is left of the heap. -/
theorem length_le (walked : Walked target heapStop reads block sizeWord blocks places) :
    32 * blocks.length ≤ heapStop.toNat - block.toNat := by
  induction walked with
  | halts unsized => exact Nat.zero_le _
  | ends sized outside =>
      rcases sized with ⟨stop_eq, least, -, inside⟩
      rw [List.length_singleton]
      omega
  | untold sized fits there silent =>
      rcases sized with ⟨stop_eq, least, -, inside⟩
      rw [List.length_singleton]
      omega
  | told sized fits there tells rest ih =>
      rcases sized with ⟨stop_eq, least, -, inside⟩
      rw [List.length_cons]
      omega

/-- The walk reads the size words behind its blocks, in their order. -/
theorem places_prefix (walked : Walked target heapStop reads block sizeWord blocks places) :
    places.map Address.toNat <+: blocks.map fun block => block.past + 8 := by
  induction walked with
  | halts unsized => exact List.prefix_refl _
  | ends sized outside => exact List.nil_prefix
  | untold sized fits there silent =>
      rw [List.map_singleton, List.map_singleton, there, sized.stop_eq]
      exact List.prefix_refl _
  | told sized fits there tells rest ih =>
      rw [List.map_cons, List.map_cons, there, sized.stop_eq]
      exact List.cons_prefix_cons.mpr ⟨rfl, ih⟩

/-- The walk reads above the block that it begins at, and inside the heap. -/
theorem places_inside (walked : Walked target heapStop reads block sizeWord blocks places)
    {place : Address} (member : place ∈ places) :
    block.toNat + 40 ≤ place.toNat ∧ place.toNat + 8 ≤ heapStop.toNat := by
  induction walked with
  | halts unsized => exact absurd member List.not_mem_nil
  | ends sized outside => exact absurd member List.not_mem_nil
  | untold sized fits there silent =>
      rcases sized with ⟨stop_eq, least, -, -⟩
      rw [List.mem_singleton.mp member]
      omega
  | told sized fits there tells rest ih =>
      rcases sized with ⟨stop_eq, least, -, -⟩
      rcases List.mem_cons.mp member with rfl | later
      · omega
      · have above := ih later
        omega

/-- Of two reads, the later one is at least thirty-two bytes above the earlier one. -/
theorem places_apart (walked : Walked target heapStop reads block sizeWord blocks places) :
    places.Pairwise fun place later => place.toNat + 32 ≤ later.toNat := by
  induction walked with
  | halts unsized => exact .nil
  | ends sized outside => exact .nil
  | untold sized fits there silent => exact List.pairwise_singleton _ _
  | told sized fits there tells rest ih =>
      refine List.pairwise_cons.mpr ⟨fun later member => ?_, ih⟩
      have above := rest.places_inside member
      omega

/-- A block is in use if the header behind it was read and says so, and unused
otherwise. -/
theorem flags_eq (walked : Walked target heapStop reads block sizeWord blocks places)
    {index : Nat} {found : HeapBlock} (there : blocks[index]? = some found) :
    (found.flags = BlockFlags.inUse ∧
        MarkedInUse target heapStop (reads + index) found.past) ∨
      (found.flags = BlockFlags.unused ∧
        ¬ MarkedInUse target heapStop (reads + index) found.past) := by
  induction walked generalizing index with
  | halts unsized => cases there
  | ends sized outside =>
      cases index with
      | zero =>
          cases there
          refine Or.inr ⟨rfl, fun marked => ?_⟩
          rw [sized.past_eq] at marked
          exact absurd marked.1 (Nat.not_le.mpr outside)
      | succ index => cases there
  | untold sized fits place silent =>
      cases index with
      | zero =>
          cases there
          refine Or.inr ⟨rfl, fun marked => ?_⟩
          rw [sized.past_eq] at marked
          rcases marked with ⟨-, next, tells, -⟩
          exact silent next tells
      | succ index => cases there
  | @told reads block sizeWord stop next _ _ _ sized fits place tells rest ih =>
      cases index with
      | zero =>
          cases there
          rw [sized.past_eq]
          cases mark : previousInUse next with
          | true => exact Or.inl ⟨rfl, fits, next, tells, mark⟩
          | false =>
              refine Or.inr ⟨rfl, ?_⟩
              rintro ⟨-, other, again, marked⟩
              rw [again.unique tells, mark] at marked
              contradiction
      | succ index =>
          have later := ih there
          rwa [Nat.add_assoc, Nat.add_comm 1] at later

end Walked

/-! ## Whole walks -/

/-- A walk whose first size word cannot be read fails; any other one goes on from its first
block after that read. -/
theorem walk_cases (target : Target) (heapStart heapStop : Word) :
    ((forall sizeWord, ¬ target.Tells 0 heapStart.toNat sizeWord) ∧
      (∃ cause, (walk target heapStart heapStop).1 = .error cause) ∧
      (walk target heapStart heapStop).2 = (readSize target 0 heapStart).2) ∨
    ∃ (sizeWord : Word) (place : Address) (blocks : List HeapBlock) (places : List Address),
      target.Tells 0 heapStart.toNat sizeWord ∧ place.toNat = heapStart.toNat + 8 ∧
      walk target heapStart heapStop = (.ok blocks, place :: places) ∧
      Walked target heapStop 1 heapStart sizeWord blocks places := by
  unfold walk
  cases read : readSize target 0 heapStart with
  | mk outcome places =>
      cases outcome with
      | error cause =>
          refine Or.inl ⟨fun sizeWord tells => ?_, ⟨cause, rfl⟩, rfl⟩
          rcases readSize_of_tells tells with ⟨_, -, known⟩
          cases read.symm.trans known
      | ok sizeWord =>
          have tells : target.Tells 0 heapStart.toNat sizeWord :=
            tells_of_readSize (by rw [read])
          rcases readSize_of_tells tells with ⟨place, there, only⟩
          cases read.symm.trans only
          exact Or.inr ⟨sizeWord, place, _, _, tells, there, rfl,
            walked_walkFrom target 1 heapStart heapStop sizeWord⟩

/-- A walk through a heap, whatever the memory answers and however the answers change.  No
header is read twice, and in a heap that has room for a header nothing is read outside of
it.  The walk fails if its first size word is not told.  Otherwise it gives blocks that lie
side by side from the start of the heap, of possible sizes, up to at most its end; and a
block is in use exactly if the header behind it lies in the heap, was read in full and
says so. -/
theorem walk_stays_inside (target : Target) (heapStart heapStop : Word) :
    ((walk target heapStart heapStop).2.Pairwise fun place later =>
      place.toNat + 32 ≤ later.toNat) ∧
    (16 ≤ heapStop.toNat - heapStart.toNat ->
      forall place, place ∈ (walk target heapStart heapStop).2 ->
        heapStart.toNat ≤ place.toNat ∧ place.toNat + 8 ≤ heapStop.toNat) ∧
    (((forall sizeWord, ¬ target.Tells 0 heapStart.toNat sizeWord) ∧
        ∃ cause, blocks target heapStart heapStop = .error cause) ∨
      ∃ found, blocks target heapStart heapStop = .ok found ∧
        found.length ≤ (heapStop.toNat - heapStart.toNat) / 32 ∧
        (forall first, found.head? = some first -> first.address = ⟨heapStart⟩) ∧
        found.IsChain (fun block later => later.address.toNat = block.past) ∧
        (forall block, block ∈ found ->
          32 ≤ block.size.toNat ∧ 16 ∣ block.size.toNat ∧ block.past ≤ heapStop.toNat) ∧
        (walk target heapStart heapStop).2.map Address.toNat <+:
          (heapStart.toNat + 8) :: found.map (fun block => block.past + 8) ∧
        forall index block, found[index]? = some block ->
          (block.flags = BlockFlags.inUse ∧
              MarkedInUse target heapStop (index + 1) block.past) ∨
            (block.flags = BlockFlags.unused ∧
              ¬ MarkedInUse target heapStop (index + 1) block.past)) := by
  unfold blocks
  rcases walk_cases target heapStart heapStop with
    ⟨untold, failed, read⟩ | ⟨sizeWord, first, found, places, -, there, walked_eq, walked⟩
  · rw [read]
    rcases readSize_places target 0 heapStart with ⟨-, none⟩ | ⟨first, there, only⟩
    · rw [none]
      exact ⟨.nil, fun _ place member => absurd member List.not_mem_nil,
        Or.inl ⟨untold, failed⟩⟩
    · rw [only]
      refine ⟨List.pairwise_singleton _ _, fun wide place member => ?_,
        Or.inl ⟨untold, failed⟩⟩
      rw [List.mem_singleton.mp member]
      omega
  · rw [walked_eq]
    refine ⟨?_, fun wide place member => ?_, Or.inr ⟨found, rfl, ?_⟩⟩
    · refine List.pairwise_cons.mpr ⟨fun later member => ?_, walked.places_apart⟩
      have above := walked.places_inside member
      omega
    · rcases List.mem_cons.mp member with rfl | later
      · omega
      · have above := walked.places_inside later
        omega
    · have least := walked.length_le
      refine ⟨by omega, fun first => walked.head_address, walked.isChain,
        fun block => walked.bounds, ?_, fun index block found => ?_⟩
      · rw [List.map_cons, there]
        exact List.cons_prefix_cons.mpr ⟨rfl, walked.places_prefix⟩
      · have flagged := walked.flags_eq found
        rwa [Nat.add_comm 1] at flagged

end Chunk
end MemoryProbe
