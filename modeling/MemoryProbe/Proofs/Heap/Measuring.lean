import MemoryProbe.Heap.Staged
import MemoryProbe.Proofs.Heap.Visiting
import MemoryProbe.Target.Staged

namespace MemoryProbe

/-!
The histograms of a walk through heaps.  Wherever the entropy of a heap is computed, the
histogram holds the bytes of exactly those blocks of this heap that were read in full.  If
the contents stay as they are, neither the order of blocks and heaps nor an earlier walk
makes a difference to it.
-/

namespace Histogram

variable {first second : Histogram}

@[simp]
theorem count_empty (byte : UInt8) : empty.count byte = 0 :=
  Vector.getElem_replicate _

/-- A histogram is what it counts. -/
@[ext]
theorem ext_count (counts : forall byte, first.count byte = second.count byte)
    (total : first.total = second.total) : first = second := by
  cases first with
  | mk left sum =>
      cases second with
      | mk right other =>
          have same : left = right := by
            apply Vector.ext
            intro index inside
            have counted := counts (UInt8.ofNat index)
            have value : (UInt8.ofNat index).toNat = index :=
              UInt8.toNat_ofNat_of_lt' inside
            simpa only [count, value] using counted
          rw [same]
          exact congrArg (Histogram.mk right) total

/-- The order of bytes makes no difference. -/
theorem add_perm (histogram : Histogram) {bytes others : List UInt8}
    (same : bytes.Perm others) : histogram.add bytes = histogram.add others := by
  ext byte
  · rw [count_add, count_add, same.count_eq]
  · exact congrArg (fun length => histogram.total + length) same.length_eq

end Histogram

namespace Target

variable {reader : Target} {reads : Nat} {blocks others : List HeapBlock}

/-- The contents of a block that is read in full have its size. -/
theorem length_of_mem_fullReads {entry : HeapBlock × List UInt8}
    (member : entry ∈ reader.fullReads reads blocks) :
    entry.2.length = entry.1.size.toNat := by
  rcases List.mem_filterMap.mp member with ⟨⟨block, number⟩, -, read⟩
  rcases Option.map_eq_some_iff.mp read with ⟨bytes, known, rfl⟩
  exact length_of_contents? known

theorem count_fullBytes (byte : UInt8) :
    (reader.fullBytes reads blocks).count byte =
      ((reader.fullReads reads blocks).map fun entry => entry.2.count byte).sum := by
  unfold fullBytes
  rw [List.count_flatten, List.map_map]
  rfl

theorem length_fullBytes :
    (reader.fullBytes reads blocks).length =
      ((reader.fullReads reads blocks).map fun entry => entry.1.size.toNat).sum := by
  unfold fullBytes
  rw [List.length_flatten, List.map_map]
  congr 1
  apply List.map_congr_left
  intro entry member
  exact length_of_mem_fullReads member

/-- If the contents stay as they are, the number of the first read makes no difference. -/
theorem fullReads_eq (timeless : reader.Timeless) (reads : Nat) (blocks : List HeapBlock) :
    reader.fullReads reads blocks = blocks.filterMap fun block =>
      (reader.contents? 0 block).map fun bytes => (block, bytes) := by
  have same : forall number block, reader.contents? number block = reader.contents? 0 block := by
    intro number block
    unfold contents?
    rw [timeless number 0]
  unfold fullReads
  simp only [same]
  conv_rhs => rw [<- List.zipIdx_map_fst reads blocks, List.filterMap_map]
  rfl

/-- Contents that stay as they are make up the same bytes in every order of the blocks. -/
theorem fullReads_perm (timeless : reader.Timeless) (same : blocks.Perm others)
    (earlier later : Nat) :
    (reader.fullReads earlier blocks).Perm (reader.fullReads later others) := by
  rw [fullReads_eq timeless, fullReads_eq timeless]
  exact same.filterMap _

end Target

/-! ## The points of a walk -/

/-- What was found out about the blocks of a heap. -/
structure Measurement where
  id : HeapId
  blocks : List HeapBlock
  /-- The number of reads before the first one of the heap. -/
  reads : Nat
  unread : Nat
  histogram : Histogram

namespace Measurement

/-- The measurement tells exactly what was read in full. -/
structure Exact (measurement : Measurement) (reader : Target) : Prop where
  count_eq : forall byte, measurement.histogram.count byte =
    ((reader.fullReads measurement.reads measurement.blocks).map fun entry =>
      entry.2.count byte).sum
  total_eq : measurement.histogram.total =
    ((reader.fullReads measurement.reads measurement.blocks).map fun entry =>
      entry.1.size.toNat).sum
  unread_eq : measurement.unread + (reader.fullReads measurement.reads measurement.blocks).length =
    measurement.blocks.length

/-- The measurement is the one that the results of a heap come from. -/
structure Yields (measurement : Measurement) (stats : HeapStats) : Prop where
  id_eq : stats.id = measurement.id
  blocks_eq : stats.blocks = measurement.blocks.length
  unreadBlocks_eq : stats.unreadBlocks = measurement.unread
  entropy_eq : stats.entropy = some measurement.histogram.entropy

end Measurement

namespace HeapWalker

/-- A walk through heaps comes to the point where the entropy of one of them is computed,
whatever becomes of it later. -/
inductive Measures (walker : HeapWalker) :
    Trace -> List HeapId -> Measurement -> Prop where
  /-- The blocks of the first heap were visited. -/
  | here {trace headed later : Trace} {id : HeapId} {first : HeapBlock}
    {others : List HeapBlock} {heaps : List HeapId} {unread : Nat} {histogram : Histogram}
    (holds : walker.listing.blocks id = .ok (first :: others))
    (heads : printHeading id trace = (.ok (), headed))
    (measured : walker.measure (first :: others) headed = (.ok (unread, histogram), later)) :
    Measures walker trace (id :: heaps) ⟨id, first :: others, headed.reads, unread, histogram⟩
  /-- The first heap was listed. -/
  | later {trace middle : Trace} {id : HeapId} {first : HeapBlock}
    {others : List HeapBlock} {heaps : List HeapId} {stats : HeapStats}
    {measurement : Measurement}
    (holds : walker.listing.blocks id = .ok (first :: others))
    (shown : walker.showHeap id first others trace = (.ok stats, middle))
    (further : Measures walker middle heaps measurement) :
    Measures walker trace (id :: heaps) measurement
  /-- The first heap was skipped. -/
  | skipping {trace : Trace} {id : HeapId} {heaps : List HeapId} {measurement : Measurement}
    (lacks : walker.listing.Lacks id) (further : Measures walker trace heaps measurement) :
    Measures walker trace (id :: heaps) measurement

variable {walker other : HeapWalker} {reader : Target} {heaps others : List HeapId}
  {trace before : Trace} {measurement another : Measurement}

/-- A measurement begins with an empty histogram and ends with the bytes of the blocks that
were read in full. -/
theorem Measures.histogram_eq (reads : walker.reader = some reader)
    (measures : walker.Measures trace heaps measurement) :
    measurement.unread + (reader.fullReads measurement.reads measurement.blocks).length =
        measurement.blocks.length ∧
      measurement.histogram =
        Histogram.empty.add (reader.fullBytes measurement.reads measurement.blocks) := by
  induction measures with
  | here holds heads measured => exact of_measure reads measured
  | later holds shown further ih => exact ih
  | skipping lacks further ih => exact ih

theorem Measures.exact (reads : walker.reader = some reader)
    (measures : walker.Measures trace heaps measurement) : measurement.Exact reader := by
  rcases measures.histogram_eq reads with ⟨number, histogram⟩
  constructor
  · intro byte
    rw [histogram, Histogram.count_add, Histogram.count_empty, Nat.zero_add,
      Target.count_fullBytes]
  · rw [histogram, <- Target.length_fullBytes]
    exact Nat.zero_add _
  · exact number

/-- The blocks are those that are listed. -/
theorem Measures.blocks_eq (measures : walker.Measures trace heaps measurement) :
    walker.listing.blocks measurement.id = .ok measurement.blocks := by
  induction measures with
  | here holds heads measured => exact holds
  | later holds shown further ih => exact ih
  | skipping lacks further ih => exact ih

/-- Two measurements of the same blocks agree if the contents stay as they are. -/
theorem Measures.agree (timeless : reader.Timeless) (reads : walker.reader = some reader)
    (also : other.reader = some reader) (measures : walker.Measures trace heaps measurement)
    (again : other.Measures before others another)
    (same : measurement.blocks.Perm another.blocks) :
    measurement.histogram = another.histogram ∧ measurement.unread = another.unread := by
  rcases measures.histogram_eq reads with ⟨number, histogram⟩
  rcases again.histogram_eq also with ⟨count, counted⟩
  have read := Target.fullReads_perm timeless same measurement.reads another.reads
  constructor
  · rw [histogram, counted]
    exact Histogram.empty.add_perm (read.map Prod.snd).flatten
  · have length := read.length_eq
    have all := same.length_eq
    omega

/-- Each heap that a walk lists was measured. -/
theorem Passes.exists_measurements {later : Trace} {found : List HeapStats} {skipped : Nat}
    (reads : walker.reader = some reader)
    (passes : walker.Passes trace heaps found skipped later) :
    ∃ measurements : List Measurement,
      (forall measurement, measurement ∈ measurements ->
        walker.Measures trace heaps measurement) ∧
      List.Forall₂ Measurement.Yields measurements found := by
  induction passes with
  | ends => exact ⟨[], fun _ member => absurd member List.not_mem_nil, .nil⟩
  | @lists trace middle _ id first others heaps stats found skipped holds shown rest ih =>
      rcases ih with ⟨measurements, measured, yields⟩
      rcases exists_of_showHeap shown with ⟨headed, walked, heads, walks⟩
      rcases exists_of_walkHeap walks with ⟨unread, histogram, measures, rfl⟩
      refine ⟨⟨id, first :: others, headed.reads, unread, histogram⟩ :: measurements, ?_, ?_⟩
      · intro measurement member
        rcases List.mem_cons.mp member with rfl | old
        · exact .here holds heads measures
        · exact .later holds shown (measured measurement old)
      · refine .cons ?_ yields
        constructor
        · rfl
        · rfl
        · rfl
        · unfold stats
          rw [reads]
          rfl
  | skips lacks rest ih =>
      rcases ih with ⟨measurements, measured, yields⟩
      exact ⟨measurements, fun measurement member => .skipping lacks (measured _ member), yields⟩

/-- A walk comes to the point where the entropy of a heap is computed. -/
def Reaches (walker : HeapWalker) (trace : Trace) (measurement : Measurement) : Prop :=
  ∃ heaps began, walker.listing.heaps = .ok heaps ∧
    printNone heaps trace = (.ok (), began) ∧ walker.Measures began heaps measurement

/-- Wherever a walk computes the entropy of a heap, the histogram tells of each byte how
often it occurs in the contents of the blocks of that heap that were read in full, its total
is the sum of their sizes, and the other blocks are unread.  The results of a walk come from
such histograms.  If the contents stay as they are, every walk with that reader finds the
same histogram for the same blocks, in whatever order the blocks and the heaps are listed
and whatever was walked before. -/
theorem walk_counts_full_reads (reads : walker.reader = some reader) :
    (forall trace measurement, walker.Reaches trace measurement ->
      walker.listing.blocks measurement.id = .ok measurement.blocks ∧
        measurement.Exact reader) ∧
    (forall trace summary later, walker.walk trace = (.ok summary, later) ->
      ∃ measurements : List Measurement,
        (forall measurement, measurement ∈ measurements -> walker.Reaches trace measurement) ∧
        List.Forall₂ Measurement.Yields measurements summary.heaps) ∧
    (reader.Timeless -> forall other : HeapWalker, other.reader = some reader ->
      forall trace before measurement another, walker.Reaches trace measurement ->
        other.Reaches before another -> measurement.blocks.Perm another.blocks ->
        measurement.histogram = another.histogram ∧ measurement.unread = another.unread) := by
  refine ⟨?_, ?_, ?_⟩
  · rintro trace measurement ⟨heaps, began, -, -, measures⟩
    exact ⟨measures.blocks_eq, measures.exact reads⟩
  · intro trace summary later ran
    cases listed : walker.listing.heaps with
    | error cause =>
        cases summary_of_unlisted listed ran
        exact ⟨[], fun _ member => absurd member List.not_mem_nil, .nil⟩
    | ok heaps =>
        rcases exists_passes_of_walk listed ran with ⟨began, ended, begins, passes⟩
        rcases passes.exists_measurements reads with ⟨measurements, measured, yields⟩
        exact ⟨measurements, fun measurement member =>
          ⟨heaps, began, listed, begins, measured measurement member⟩, yields⟩
  · rintro timeless other also trace before measurement another ⟨heaps, began, -, -, measures⟩
      ⟨others, start, -, -, again⟩ same
    exact measures.agree timeless reads also again same

end HeapWalker

/-! ## A walk through two heaps -/

/-- A process with eight equal bytes and four others. -/
def sparseProcess : StagedProcess :=
  (StagedProcess.withRegion {} ⟨4096⟩ (List.replicate 8 7) Protection.readable).withRegion
    ⟨8192⟩ [0, 1, 0, 1] Protection.readable

/-- Two heaps, of which the second has a block that cannot be read. -/
def sparseHeaps : StagedHeaps where
  heaps := [(⟨16⟩, some [⟨⟨4096⟩, 8, .inUse⟩]),
    (⟨32⟩, some [⟨⟨12288⟩, 8, .inUse⟩, ⟨⟨8192⟩, 4, .inUse⟩])]

def sparseWalker : HeapWalker where
  listing := sparseHeaps.listing
  reader := some sparseProcess.target

namespace HeapWalker

/-- The walk comes to the second heap behind the first one. -/
theorem sparseWalker_reaches :
    ∃ measurement, sparseWalker.Reaches {} measurement ∧ measurement.id = ⟨32⟩ := by
  let first : HeapBlock := ⟨⟨4096⟩, 8, .inUse⟩
  let second : HeapBlock := ⟨⟨12288⟩, 8, .inUse⟩
  let third : HeapBlock := ⟨⟨8192⟩, 4, .inUse⟩
  have shows : (sparseWalker.showHeap ⟨16⟩ first [] {}).1.isOk = true := by
    decide +kernel
  have heads : (printHeading ⟨32⟩ (sparseWalker.showHeap ⟨16⟩ first [] {}).2).1.isOk = true := by
    decide +kernel
  have measures : (sparseWalker.measure [second, third]
      (printHeading ⟨32⟩ (sparseWalker.showHeap ⟨16⟩ first [] {}).2).2).1.isOk = true := by
    decide +kernel
  rcases Run.exists_of_isOk shows with ⟨stats, middle, shown⟩
  rw [shown] at heads measures
  rcases Run.exists_of_isOk heads with ⟨_, headed, headed_eq⟩
  rw [headed_eq] at measures
  rcases Run.exists_of_isOk measures with ⟨⟨unread, histogram⟩, later, measured⟩
  exact ⟨_, ⟨_, _, rfl, rfl, .later rfl shown (.here rfl headed_eq measured)⟩, rfl⟩

/-- In the histogram of the second heap there is nothing of the first heap and of the block
that cannot be read, which would have found its eight bytes in the buffer. -/
theorem walk_counts_full_reads_of_sparse :
    sparseWalker.reader = some sparseProcess.target ∧ sparseProcess.target.Timeless ∧
    ∃ measurement, sparseWalker.Reaches {} measurement ∧ measurement.id = ⟨32⟩ ∧
      measurement.histogram.count 7 = 0 ∧ measurement.histogram.count 0 = 2 ∧
      measurement.histogram.total = 4 ∧ measurement.unread = 1 ∧
      forall trace another, sparseWalker.Reaches trace another ->
        another.blocks = measurement.blocks -> another.histogram = measurement.histogram := by
  have timeless : sparseProcess.target.Timeless := fun _ _ _ _ => rfl
  rcases @walk_counts_full_reads sparseWalker sparseProcess.target rfl with
    ⟨exactly, -, agree⟩
  rcases sparseWalker_reaches with ⟨measurement, reaches, id⟩
  rcases exactly {} measurement reaches with ⟨holds, exact⟩
  rw [id] at holds
  have blocks : measurement.blocks = [⟨⟨12288⟩, 8, .inUse⟩, ⟨⟨8192⟩, 4, .inUse⟩] :=
    (Except.ok.inj holds).symm
  have read : sparseProcess.target.fullReads measurement.reads measurement.blocks =
      [(⟨⟨8192⟩, 4, .inUse⟩, [0, 1, 0, 1])] := by
    rw [Target.fullReads_eq timeless, blocks]
    rfl
  have number := exact.unread_eq
  refine ⟨rfl, timeless, measurement, reaches, id, ?_, ?_, ?_, ?_, ?_⟩
  · rw [exact.count_eq, read]
    rfl
  · rw [exact.count_eq, read]
    rfl
  · rw [exact.total_eq, read]
    rfl
  · rw [read, blocks] at number
    exact Nat.succ.inj number
  · intro trace another again same
    exact (agree timeless sparseWalker rfl trace {} another measurement again reaches
      (same ▸ List.Perm.refl _)).1

end HeapWalker

/-! ## Contents that change, and a block that is too big -/

/-- A process whose contents change all the time: each byte that a read copies is the number of
the read. -/
def restlessProcess : Target where
  pid := 1
  query := fun _ => .ok none
  read := fun earlierReads _ length => .ok (List.replicate length (UInt8.ofNat earlierReads))
  modulePath := fun _ => none
  imagePath := none

/-- A walker of one heap of that process. -/
def restlessWalker (blocks : List HeapBlock) : HeapWalker where
  listing := StagedHeaps.listing { heaps := [(⟨16⟩, some blocks)] }
  reader := some restlessProcess

/-- A walker of two heaps, of which one has a block for which there can be no buffer. -/
def crowdedWalker (order : List HeapId) : HeapWalker where
  listing := StagedHeaps.listing { heaps := order.map fun id =>
    (id, some [⟨⟨4096⟩, if id = ⟨32⟩ then 0x8000000000000000 else 8, .inUse⟩]) }
  reader := some sparseProcess.target

namespace HeapWalker

variable {walker : HeapWalker} {id : HeapId} {first : HeapBlock} {others : List HeapBlock}
  {heaps : List HeapId} {trace : Trace}

/-- A walk comes to the entropy of its first heap if the heading and the blocks are printed. -/
theorem exists_reaches_of_isOk (listed : walker.listing.heaps = .ok (id :: heaps))
    (holds : walker.listing.blocks id = .ok (first :: others))
    (heads : (printHeading id trace).1.isOk = true)
    (measures : (walker.measure (first :: others) (printHeading id trace).2).1.isOk = true) :
    ∃ measurement, walker.Reaches trace measurement ∧ measurement.id = id ∧
      measurement.blocks = first :: others ∧
      measurement.reads = (printHeading id trace).2.reads := by
  rcases Run.exists_of_isOk heads with ⟨_, headed, head⟩
  rw [head] at measures
  rcases Run.exists_of_isOk measures with ⟨⟨unread, histogram⟩, later, measured⟩
  exact ⟨⟨id, first :: others, headed.reads, unread, histogram⟩,
    ⟨_, trace, listed, rfl, .here holds head measured⟩, rfl, rfl, by rw [head]⟩

/-- A walk comes to no entropy if it cannot go through the blocks of the first heap. -/
theorem not_reaches_of_fails (listed : walker.listing.heaps = .ok (id :: heaps))
    (holds : walker.listing.blocks id = .ok (first :: others))
    (fails : (walker.measure (first :: others) (printHeading id trace).2).1.isOk = false)
    (measurement : Measurement) : ¬ walker.Reaches trace measurement := by
  rintro ⟨_, began, all, none, measures⟩
  cases listed.symm.trans all
  cases none
  cases measures with
  | here also heads measured =>
      cases holds.symm.trans also
      rw [heads, measured] at fails
      cases fails
  | later also shown further =>
      cases holds.symm.trans also
      rcases exists_of_showHeap shown with ⟨headed, walked, heads, walks⟩
      rcases exists_of_walkHeap walks with ⟨unread, histogram, measured, -⟩
      rw [heads, measured] at fails
      cases fails
  | skipping lacks further =>
      rcases lacks with ⟨cause, failed⟩ | none
      · cases holds.symm.trans failed
      · cases holds.symm.trans none

/-- Where the contents change all the time, different bytes make different histograms. -/
theorem histogram_ne_of_restless {blocks changed : List HeapBlock} {before : Trace}
    {measurement another : Measurement}
    (reaches : (restlessWalker blocks).Reaches trace measurement)
    (also : (restlessWalker changed).Reaches before another)
    (apart : (restlessProcess.fullBytes measurement.reads measurement.blocks).count 0 ≠
      (restlessProcess.fullBytes another.reads another.blocks).count 0) :
    measurement.histogram ≠ another.histogram := by
  rcases reaches with ⟨_, _, -, -, measures⟩
  rcases also with ⟨_, _, -, -, again⟩
  rw [(measures.histogram_eq rfl).2, (again.histogram_eq rfl).2]
  intro same
  have counts := congrArg (fun histogram => histogram.count 0) same
  simp only [Histogram.count_add] at counts
  exact apart (Nat.add_left_cancel counts)

/-- Where contents change, a walk behind another and a walk in another order count other bytes of
the same blocks.  And even where they do not, a heap is not measured behind one for whose blocks
there can be no buffer, and is measured in front of it. -/
theorem histograms_differ_by_order :
    (∃ summary later first second,
      (restlessWalker [⟨⟨4096⟩, 1, .inUse⟩]).walk {} = (.ok summary, later) ∧
      (restlessWalker [⟨⟨4096⟩, 1, .inUse⟩]).Reaches {} first ∧
      (restlessWalker [⟨⟨4096⟩, 1, .inUse⟩]).Reaches later second ∧
      first.blocks = second.blocks ∧ first.histogram ≠ second.histogram) ∧
    (∃ first second,
      (restlessWalker [⟨⟨4096⟩, 1, .inUse⟩, ⟨⟨8192⟩, 2, .inUse⟩]).Reaches {} first ∧
      (restlessWalker [⟨⟨8192⟩, 2, .inUse⟩, ⟨⟨4096⟩, 1, .inUse⟩]).Reaches {} second ∧
      first.blocks.Perm second.blocks ∧ first.histogram ≠ second.histogram) ∧
    sparseProcess.target.Timeless ∧
    (∃ measurement, (crowdedWalker [⟨16⟩, ⟨32⟩]).Reaches {} measurement ∧
      measurement.id = ⟨16⟩) ∧
    forall measurement, ¬ (crowdedWalker [⟨32⟩, ⟨16⟩]).Reaches {} measurement := by
  refine ⟨?_, ?_, fun _ _ _ _ => rfl, ?_, ?_⟩
  · have walks : ((restlessWalker [⟨⟨4096⟩, 1, .inUse⟩]).walk {}).1.isOk = true := by
      decide +kernel
    rcases Run.exists_of_isOk walks with ⟨summary, later, walked⟩
    have again : (printHeading ⟨16⟩ later).1.isOk = true ∧
        ((restlessWalker [⟨⟨4096⟩, 1, .inUse⟩]).measure [⟨⟨4096⟩, 1, .inUse⟩]
          (printHeading ⟨16⟩ later).2).1.isOk = true ∧ (printHeading ⟨16⟩ later).2.reads = 1 := by
      have behind : later = ((restlessWalker [⟨⟨4096⟩, 1, .inUse⟩]).walk {}).2 := by rw [walked]
      rw [behind]
      decide +kernel
    rcases @exists_reaches_of_isOk (restlessWalker [⟨⟨4096⟩, 1, .inUse⟩]) ⟨16⟩ _ [] [] {}
      rfl rfl (by decide +kernel) (by decide +kernel) with ⟨first, reaches, -, blocks, reads⟩
    rcases exists_reaches_of_isOk rfl rfl again.1 again.2.1 with
      ⟨second, also, -, others, further⟩
    refine ⟨summary, later, first, second, walked, reaches, also, blocks.trans others.symm,
      histogram_ne_of_restless reaches also ?_⟩
    rw [blocks, others, further, again.2.2, reads]
    decide +kernel
  · rcases @exists_reaches_of_isOk
      (restlessWalker [⟨⟨4096⟩, 1, .inUse⟩, ⟨⟨8192⟩, 2, .inUse⟩]) ⟨16⟩ _ _ [] {} rfl rfl
      (by decide +kernel) (by decide +kernel) with ⟨first, reaches, -, blocks, reads⟩
    rcases @exists_reaches_of_isOk
      (restlessWalker [⟨⟨8192⟩, 2, .inUse⟩, ⟨⟨4096⟩, 1, .inUse⟩]) ⟨16⟩ _ _ [] {} rfl rfl
      (by decide +kernel) (by decide +kernel) with ⟨second, also, -, others, further⟩
    refine ⟨first, second, reaches, also, ?_, histogram_ne_of_restless reaches also ?_⟩
    · rw [blocks, others]
      exact .swap _ _ []
    · rw [blocks, others, further, reads]
      decide +kernel
  · rcases @exists_reaches_of_isOk (crowdedWalker [⟨16⟩, ⟨32⟩]) ⟨16⟩ _ _ _ {} rfl rfl
      (by decide +kernel) (by decide +kernel) with ⟨measurement, reaches, named, -, -⟩
    exact ⟨measurement, reaches, named⟩
  · exact @not_reaches_of_fails (crowdedWalker [⟨32⟩, ⟨16⟩]) ⟨32⟩ _ _ _ {} rfl rfl
      (by decide +kernel)

end HeapWalker
end MemoryProbe
