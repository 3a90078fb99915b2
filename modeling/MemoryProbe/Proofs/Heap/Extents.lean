import MemoryProbe.Kernel.LiveHeaps
import MemoryProbe.Machine.Staged
import MemoryProbe.Proofs.Heap.Spanning
import MemoryProbe.Proofs.Heap.Visiting

namespace MemoryProbe

/-!
The extents that walks through heaps tell.  The blocks of a listing may be anything, and the
extent of a heap still has a size.  The blocks of a live heap lie back to back, so that its
size is the sum of theirs.
-/

/-- Some blocks lie between the ends of a heap, which is no shorter than they are
together. -/
structure HeapStats.Holds (stats : HeapStats) (blocks : List HeapBlock) : Prop where
  inside : forall block, block ∈ blocks ->
    stats.start.toNat ≤ block.address.toNat ∧ block.past ≤ stats.stop.toNat
  room : ∃ size, stats.size = .ok size ∧
    (blocks.map fun block => block.size.toNat).sum ≤ size.toNat

/-- What a heap tells of its blocks. -/
structure HeapStats.Encloses (stats : HeapStats) (blocks : List HeapBlock) : Prop where
  start_mem : ∃ block, block ∈ blocks ∧ block.address = stats.start
  start_le : forall block, block ∈ blocks -> stats.start.toNat ≤ block.address.toNat
  /-- The heap stops with the first block of the greatest address. -/
  stop_eq : ∃ before last after, blocks = before ++ last :: after ∧
    (forall block, block ∈ before -> block.address.toNat < last.address.toNat) ∧
    (forall block, block ∈ after -> block.address.toNat ≤ last.address.toNat) ∧
    stats.stop.toNat = min last.past (UInt64.size - 1)
  start_le_stop : stats.start.toNat ≤ stats.stop.toNat
  size_eq : ∃ size, stats.size = .ok size ∧
    size.toNat = stats.stop.toNat - stats.start.toNat
  holds : blocks.Pairwise HeapBlock.Apart ->
    (forall block, block ∈ blocks -> 0 < block.size.toNat) ->
    (forall block, block ∈ blocks -> block.past < UInt64.size) -> stats.Holds blocks

/-- Each block begins where the one before ends. -/
def HeapBlock.BackToBack (blocks : List HeapBlock) : Prop :=
  blocks.IsChain fun earlier later => later.address.toNat = earlier.past

/-- The first heap of a process that has a name. -/
def LiveProcess.heap? (process : LiveProcess) (id : HeapId) : Option Mapping :=
  process.mappings.find? fun mapping =>
    mapping.path == some LiveHeaps.heapPath && mapping.start == id.value

/-- An address has a distance from every lower one. -/
theorem Address.exists_since {address lower : Address} (below : lower.toNat ≤ address.toNat) :
    ∃ distance, address.since lower = .ok distance ∧
      distance.toNat = address.toNat - lower.toNat := by
  have bound : address.toNat < UInt64.size := address.value.toNat_lt
  have value : (UInt64.ofNat (address.toNat - lower.toNat)).toNat =
      address.toNat - lower.toNat := UInt64.toNat_ofNat_of_lt' (by omega)
  refine ⟨UInt64.ofNat (address.toNat - lower.toNat), ?_, value⟩
  apply Word.difference_eq_ok_iff.mpr
  change address.toNat = lower.toNat + _
  rw [value]
  omega

/-! ## Any blocks -/

/-- Walking a heap tells its extent. -/
theorem HeapWalker.encloses_of_walkHeap {walker : HeapWalker} {id : HeapId}
    {first : HeapBlock} {rest : List HeapBlock} {stats : HeapStats} {trace later : Trace}
    (ran : walker.walkHeap id first rest trace = (.ok stats, later)) :
    stats.Encloses (first :: rest) := by
  rcases exists_of_walkHeap ran with ⟨unread, histogram, -, rfl⟩
  have spans := HeapExtent.spans_ofBlocks first rest
  have ordered := spans.start_le_stop
  constructor
  · exact spans.start_mem
  · exact spans.start_le
  · rcases spans.last_first with ⟨before, after, parts, below, above⟩
    exact ⟨before, _, after, parts, below, above, HeapExtent.stop_toNat _⟩
  · exact ordered
  · exact Address.exists_since ordered
  · intro apart filled fits
    rcases Address.exists_since ordered with ⟨size, known, length⟩
    constructor
    · exact fun block member => spans.contains apart filled fits member
    · refine ⟨size, known, ?_⟩
      rw [length]
      exact spans.sum_sizes_le apart filled fits

/-! ## Blocks that lie back to back -/

namespace HeapBlock

variable {first last block : HeapBlock} {rest : List HeapBlock}

/-- Blocks that lie back to back lie behind the first of them. -/
theorem BackToBack.address_le (chain : BackToBack (first :: rest))
    (member : block ∈ first :: rest) : first.address.toNat ≤ block.address.toNat := by
  induction rest generalizing first with
  | nil =>
      rw [List.mem_singleton.mp member]
  | cons next rest ih =>
      rcases List.isChain_cons_cons.mp chain with ⟨joined, others⟩
      have past : first.past = first.address.toNat + first.size.toNat := rfl
      rcases List.mem_cons.mp member with rfl | later
      · exact Nat.le_refl _
      · have behind := ih others later
        omega

/-- The last of them ends as far behind the start of the first one as all of them are
long. -/
theorem BackToBack.past_eq (chain : BackToBack (first :: rest))
    (ends : (first :: rest).getLast? = some last) :
    last.past = first.address.toNat +
      ((first :: rest).map fun block => block.size.toNat).sum := by
  induction rest generalizing first with
  | nil =>
      cases ends
      rfl
  | cons next rest ih =>
      rcases List.isChain_cons_cons.mp chain with ⟨joined, others⟩
      have past : first.past = first.address.toNat + first.size.toNat := rfl
      rw [List.getLast?_cons_cons] at ends
      rw [ih others ends, joined, past]
      simp only [List.map_cons, List.sum_cons, Nat.add_assoc]

end HeapBlock

namespace HeapStats.Encloses

variable {stats : HeapStats} {first : HeapBlock} {rest : List HeapBlock}

/-- A heap of such blocks begins with the first of them. -/
theorem start_eq (encloses : stats.Encloses (first :: rest))
    (chain : HeapBlock.BackToBack (first :: rest)) : stats.start = first.address := by
  rcases encloses.start_mem with ⟨block, member, same⟩
  apply Address.toNat_inj.mp
  apply Nat.le_antisymm
  · exact encloses.start_le first List.mem_cons_self
  · rw [<- same]
    exact chain.address_le member

/-- A heap of such blocks stops behind the last of them. -/
theorem exists_last (encloses : stats.Encloses (first :: rest))
    (chain : HeapBlock.BackToBack (first :: rest))
    (filled : forall block, block ∈ first :: rest -> 0 < block.size.toNat) :
    ∃ last, (first :: rest).getLast? = some last ∧
      stats.stop.toNat = min last.past (UInt64.size - 1) := by
  rcases encloses.stop_eq with ⟨before, last, after, parts, -, above, stops⟩
  refine ⟨last, ?_, stops⟩
  rw [parts] at chain filled ⊢
  cases after with
  | nil => exact List.getLast?_concat
  | cons next after =>
      -- The block behind the last one would begin above it.
      have joined := (List.isChain_cons_cons.mp (List.isChain_append.mp chain).2.1).1
      have lower := above next List.mem_cons_self
      have size := filled last (List.mem_append_right before List.mem_cons_self)
      have past : last.past = last.address.toNat + last.size.toNat := rfl
      omega

/-- A heap of such blocks is as long as they are together. -/
theorem exact_of_backToBack (encloses : stats.Encloses (first :: rest))
    (chain : HeapBlock.BackToBack (first :: rest))
    (filled : forall block, block ∈ first :: rest -> 0 < block.size.toNat)
    {heapStop : Word} (fits : forall block, block ∈ first :: rest ->
      block.past ≤ heapStop.toNat) :
    stats.start = first.address ∧ stats.stop.toNat ≤ heapStop.toNat ∧
      ∃ size, stats.size = .ok size ∧
        size.toNat = ((first :: rest).map fun block => block.size.toNat).sum := by
  have begins := encloses.start_eq chain
  rcases encloses.exists_last chain filled with ⟨last, ends, stops⟩
  rcases encloses.size_eq with ⟨size, known, length⟩
  have whole := chain.past_eq ends
  have inside := fits last (List.mem_of_getLast? ends)
  have limit : heapStop.toNat < UInt64.size := heapStop.toNat_lt
  have same : stats.stop.toNat = last.past := by omega
  refine ⟨begins, same ▸ inside, size, known, ?_⟩
  rw [length, same, whole, begins, Nat.add_sub_cancel_left]

end HeapStats.Encloses

/-! ## Live heaps -/

namespace LiveHeaps

variable {process : LiveProcess} {target : Target} {id : HeapId}

theorem range?_ofProcess (process : LiveProcess) (id : HeapId) :
    (ofProcess process).range? id =
      (process.heap? id).map fun mapping => (mapping.start, mapping.stop) := by
  unfold range? ofProcess LiveProcess.heap?
  rw [List.find?_map, List.find?_filter]
  congr 2
  funext mapping
  rw [Bool.decide_and, Bool.decide_eq_true, Bool.decide_eq_true]
  rfl

/-- The blocks of a live heap are read out of the first mapping of its name. -/
theorem exists_heap {blocks : List HeapBlock}
    (holds : (ofProcess process).blocks target id = .ok blocks) :
    ∃ mapping, process.heap? id = some mapping ∧
      Chunk.blocks target mapping.start mapping.stop = .ok blocks := by
  unfold LiveHeaps.blocks at holds
  rw [range?_ofProcess] at holds
  cases found : process.heap? id with
  | none =>
      rw [found] at holds
      cases holds
  | some mapping =>
      rw [found] at holds
      exact ⟨mapping, rfl, holds⟩

end LiveHeaps

/-- The blocks of a live heap lie back to back from its start on, are not empty, and lie
inside it. -/
theorem Chunk.backToBack_of_blocks {target : Target} {heapStart heapStop : Word}
    {blocks : List HeapBlock}
    (holds : Chunk.blocks target heapStart heapStop = .ok blocks) :
    (forall first, blocks.head? = some first -> first.address = ⟨heapStart⟩) ∧
      HeapBlock.BackToBack blocks ∧
      forall block, block ∈ blocks ->
        0 < block.size.toNat ∧ block.past ≤ heapStop.toNat := by
  unfold Chunk.blocks at holds
  rcases walk_cases target heapStart heapStop with
    ⟨-, ⟨cause, failed⟩, -⟩ | ⟨sizeWord, place, found, places, -, -, walks, walked⟩
  · cases holds.symm.trans failed
  · rw [walks] at holds
    cases holds
    refine ⟨fun first => walked.head_address, walked.isChain, fun block member => ?_⟩
    have bounds := walked.bounds member
    exact ⟨by omega, bounds.2.2⟩

/-- Walking the blocks of a live heap tells its extent, which is exactly as long as they are. -/
theorem HeapWalker.exact_of_walkHeap {walker : HeapWalker} {target : Target}
    {heapStart heapStop : Word} {id : HeapId} {first : HeapBlock} {rest : List HeapBlock}
    {stats : HeapStats} {trace later : Trace}
    (holds : Chunk.blocks target heapStart heapStop = .ok (first :: rest))
    (ran : walker.walkHeap id first rest trace = (.ok stats, later)) :
    stats.id = id ∧ stats.Encloses (first :: rest) ∧ stats.start = ⟨heapStart⟩ ∧
      stats.stop.toNat ≤ heapStop.toNat ∧
      ∃ size, stats.size = .ok size ∧
        size.toNat = ((first :: rest).map fun block => block.size.toNat).sum := by
  have encloses := encloses_of_walkHeap ran
  rcases Chunk.backToBack_of_blocks holds with ⟨begins, chain, bounds⟩
  rcases encloses.exact_of_backToBack chain (fun block inside => (bounds block inside).1)
    (fun block inside => (bounds block inside).2) with ⟨starts, stops, size⟩
  rcases exists_of_walkHeap ran with ⟨unread, histogram, -, rfl⟩
  exact ⟨rfl, encloses, starts.trans (begins first rfl), stops, size⟩

/-- A walk through the heaps of a process that comes to an answer walked a listing of
them, perhaps after it was seen whether the process can be read. -/
theorem exists_of_walkProcessHeaps {machine : Machine} {pid : UInt32}
    {listsBlocks wantsEntropy : Bool} {trace later : Trace} {summary : HeapSummary}
    (ran : walkProcessHeaps machine pid listsBlocks wantsEntropy trace = (.ok summary, later)) :
    ∃ process reader begun, LiveProcess.openOn machine pid = .ok process ∧
      ((LiveHeaps.ofProcess process).listing (process.target machine)).walk listsBlocks reader
        begun = (.ok summary, later) := by
  rcases Run.exists_of_bind ran with ⟨process, opened, opens, ran⟩
  cases taken : LiveProcess.openOn machine pid with
  | error cause =>
      rw [taken] at opens
      cases opens
  | ok process =>
      rw [taken] at opens
      cases opens
      cases wantsEntropy with
      | false => exact ⟨process, none, trace, rfl, ran⟩
      | true =>
          rcases Run.exists_of_bind ran with ⟨opened, begun, -, ran⟩
          exact ⟨process, _, begun, rfl, ran⟩

/-- A walk through a heap tells the least address of a block, and the end of the first block
of the greatest address, held at the greatest word.  The heap does not end before it begins,
so it has a size.  If the blocks are not empty, share no byte and end inside the address
space, they lie in the heap.  In the heaps of a process the blocks lie back to back: such a
heap begins with its mapping, ends inside of it, and is exactly as long as its blocks. -/
theorem walk_tells_extents :
    (forall (walker : HeapWalker) (id : HeapId) (first : HeapBlock) (rest : List HeapBlock)
      (trace : Trace) (stats : HeapStats) (later : Trace),
      walker.walkHeap id first rest trace = (.ok stats, later) ->
        stats.Encloses (first :: rest)) ∧
    (forall (machine : Machine) (pid : UInt32) (listsBlocks wantsEntropy : Bool)
      (trace : Trace) (summary : HeapSummary) (later : Trace),
      walkProcessHeaps machine pid listsBlocks wantsEntropy trace = (.ok summary, later) ->
        ∃ process, LiveProcess.openOn machine pid = .ok process ∧
          forall stats, stats ∈ summary.heaps -> ∃ mapping blocks,
            process.heap? stats.id = some mapping ∧
            Chunk.blocks (process.target machine) mapping.start mapping.stop = .ok blocks ∧
            stats.Encloses blocks ∧ stats.start = ⟨mapping.start⟩ ∧
            stats.stop.toNat ≤ mapping.stop.toNat ∧
            ∃ size, stats.size = .ok size ∧
              size.toNat = (blocks.map fun block => block.size.toNat).sum) := by
  constructor
  · intro walker id first rest trace stats later ran
    exact HeapWalker.encloses_of_walkHeap ran
  · intro machine pid listsBlocks wantsEntropy trace summary later ran
    rcases exists_of_walkProcessHeaps ran with ⟨process, reader, begun, opens, ran⟩
    refine ⟨process, opens, fun stats member => ?_⟩
    rcases HeapListing.exists_walk ran with ⟨began, walks⟩
    rcases HeapWalker.exists_passes_of_walk rfl walks with ⟨start, ended, -, passes⟩
    rcases passes.exists_walkHeap member with
      ⟨id, first, others, before, after, -, holds, walked⟩
    rcases LiveHeaps.exists_heap holds with ⟨mapping, found, blocks⟩
    rcases HeapWalker.exact_of_walkHeap blocks walked with ⟨rfl, exact⟩
    exact ⟨mapping, first :: others, found, blocks, exact⟩

/-- A machine with one process, whose heap has two blocks of thirty-two bytes each and room
behind them. -/
def pairMachine : StagedMachine :=
  let listing := "1000-1048 rw-p 00000000 00:00 0 [heap]"
  let header : List UInt8 := [0, 0, 0, 0, 0, 0, 0, 0, 33, 0, 0, 0, 0, 0, 0, 0]
  let block := header ++ List.replicate 16 0
  { files := [("/proc/7/maps", listing.toList.map fun character => UInt8.ofNat character.toNat)]
    memory := [(7, .segments [⟨4096, (block ++ block ++ List.replicate 8 0).toArray⟩])] }

/-- The walk lists its heap, which is as long as its two blocks and shorter than its
mapping. -/
theorem walk_tells_extents_of_pair :
    ∃ summary later stats,
      walkProcessHeaps pairMachine.machine 7 false false {} = (.ok summary, later) ∧
        stats ∈ summary.heaps ∧ stats.start = ⟨4096⟩ ∧ stats.stop.toNat ≤ 4168 ∧
        ∃ size, stats.size = .ok size ∧ size.toNat = 64 := by
  have answers : (walkProcessHeaps pairMachine.machine 7 false false {}).1.isOk = true := by
    decide +kernel
  have lists : ((walkProcessHeaps pairMachine.machine 7 false false {}).1.toOption.map
      fun summary => summary.heaps.map HeapStats.id) = some [⟨4096⟩] := by
    decide +kernel
  have taken : ((LiveProcess.openOn pairMachine.machine 7).toOption.bind
      fun process => process.heap? ⟨4096⟩) =
        some ⟨4096, 4168, Protection.ofColumn "rw-p".toList, 0, 0, some "[heap]"⟩ := by
    decide +kernel
  have read : ((LiveProcess.openOn pairMachine.machine 7).toOption.bind
      fun process => (Chunk.blocks (process.target pairMachine.machine) 4096 4168).toOption) =
        some [⟨⟨4096⟩, 32, .inUse⟩, ⟨⟨4128⟩, 32, .unused⟩] := by
    decide +kernel
  rcases Run.exists_of_isOk answers with ⟨summary, later, ran⟩
  rcases walk_tells_extents.2 _ _ _ _ _ _ _ ran with ⟨process, opened, tells⟩
  rw [ran] at lists
  rw [opened] at taken read
  have names : summary.heaps.map HeapStats.id = [⟨4096⟩] := Option.some.inj lists
  rcases List.mem_map.mp (names ▸ List.mem_singleton_self _) with ⟨stats, member, named⟩
  rcases tells stats member with ⟨mapping, blocks, found, holds, -, starts, stops, sized⟩
  rw [named] at found
  cases found.symm.trans taken
  change (Chunk.blocks _ _ _).toOption = _ at read
  rw [holds] at read
  cases read
  exact ⟨summary, later, stats, ran, member, starts, stops, sized⟩

end MemoryProbe
