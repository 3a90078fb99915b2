import MemoryProbe.Heap.Walk
import MemoryProbe.Proofs.Reciting

namespace MemoryProbe

/-!
What a walk over heaps asks its output for.  Reading and counting are silent, all else only
prints, so a walk asks for the same lines whatever the output and fails at the first line
that is refused.
-/

namespace HeapWalker

open Run

/-! ## Reading and counting -/

theorem inward_growBuffer (length : Nat) : (growBuffer length).Inward := by
  intro sink drain count trace
  unfold growBuffer
  dsimp only
  split
  · rfl
  · split <;> rfl

theorem inward_countBytes (bytes : List UInt8) : (countBytes bytes).Inward := by
  intro sink drain count trace
  unfold countBytes
  dsimp only
  split <;> rfl

theorem inward_countContents (length : Nat) (answer : Except MemoryError (List UInt8)) :
    (countContents length answer).Inward := by
  cases answer with
  | error cause => exact .pure false
  | ok bytes =>
      refine Inward.bind (fun _ _ _ _ => rfl) fun buffer => ?_
      split
      · exact (inward_countBytes _).bind fun _ => .pure true
      · exact .pure false

theorem inward_resetHistogram : resetHistogram.Inward :=
  fun _ _ _ _ => rfl

theorem inward_countedBytes : countedBytes.Inward :=
  fun _ _ _ _ => rfl

theorem silent_accumulate (reader : Target) (block : HeapBlock) :
    Silent (accumulate reader block) :=
  (inward_growBuffer _).silent.bind fun _ => (Silent.readIn reader _ _).bind fun answer =>
    (inward_countContents _ answer).silent

/-! ## Printing -/

variable (walker : HeapWalker)

theorem printing_printBlock (block : HeapBlock) : (walker.printBlock block).Printing := by
  unfold printBlock
  split
  · exact printing_writeLine _
  · exact printing_pure ()

theorem printing_printPlace (block : HeapBlock) : (walker.printPlace block).Printing := by
  unfold printPlace
  split
  · exact printing_pure ()
  · exact printing_writeLine _

theorem printing_printUnread (block : HeapBlock) : (walker.printUnread block).Printing :=
  (walker.printing_printPlace block).then (printing_writeLine _)

theorem printing_printStats (stats : HeapStats) : (printStats stats).Printing := by
  refine (printing_writeLine _).then ((printing_writeLine _).then ?_)
  refine (printing_ofChecked _).bind fun size => (printing_writeLine _).then ?_
  split
  · exact printing_writeLine _
  · exact printing_pure ()

theorem printing_printNone (heaps : List HeapId) : (printNone heaps).Printing := by
  unfold printNone
  split
  · exact printing_writeLine _
  · exact printing_pure ()

/-! ## The walk -/

theorem recites_visitBlock (block : HeapBlock) :
    (walker.visitBlock block).Recites IsRefusal := by
  refine (walker.printing_printBlock block).recites.bind fun _ => ?_
  split
  · exact (printing_pure false).recites
  · rename_i reader _
    refine (Recites.of_silent (silent_accumulate reader block)).bind fun whole => ?_
    cases whole with
    | true => exact (printing_pure false).recites
    | false => exact ((walker.printing_printUnread block).then (printing_pure true)).recites

theorem recites_visitBlocks (unread : Nat) (blocks : List HeapBlock) :
    (walker.visitBlocks unread blocks).Recites IsRefusal := by
  induction blocks generalizing unread with
  | nil => exact (printing_pure unread).recites
  | cons block rest ih =>
      exact (walker.recites_visitBlock block).bind fun missed => ih (unread + missed.toNat)

theorem recites_measure (blocks : List HeapBlock) :
    (walker.measure blocks).Recites IsRefusal := by
  refine (Recites.of_silent inward_resetHistogram.silent).bind fun _ => ?_
  refine (walker.recites_visitBlocks 0 blocks).bind fun unread => ?_
  exact (Recites.of_silent inward_countedBytes.silent).bind fun histogram =>
    (printing_pure _).recites

theorem recites_walkHeap (id : HeapId) (first : HeapBlock) (rest : List HeapBlock) :
    (walker.walkHeap id first rest).Recites IsRefusal :=
  (walker.recites_measure (first :: rest)).bind fun _ => (printing_pure _).recites

theorem recites_showHeap (id : HeapId) (first : HeapBlock) (rest : List HeapBlock) :
    (walker.showHeap id first rest).Recites IsRefusal := by
  refine (printing_writeLine _).recites.bind fun _ => ?_
  refine (walker.recites_walkHeap id first rest).bind fun stats => ?_
  exact ((printing_printStats stats).then (printing_pure stats)).recites

theorem recites_walkHeaps (summary : HeapSummary) (heaps : List HeapId) :
    (walker.walkHeaps summary heaps).Recites IsRefusal := by
  induction heaps generalizing summary with
  | nil => exact (printing_pure summary).recites
  | cons id rest ih =>
      unfold walkHeaps
      split
      · rename_i first others _
        exact (walker.recites_showHeap id first others).bind fun stats => ih _
      · exact ih _

theorem recites_walk : walker.walk.Recites IsRefusal := by
  unfold walk
  split
  · exact ((printing_writeLine _).then (printing_pure _)).recites
  · rename_i heaps _
    refine (printing_printNone heaps).recites.bind fun _ => ?_
    refine (walker.recites_walkHeaps {} heaps).bind fun summary => ?_
    exact ((printing_writeLine "").then (printing_pure summary)).recites

/-! ## Without a reader -/

section Bare

variable {walker : HeapWalker} (bare : walker.reader = none)

include bare

theorem unaware_visitBlocks (unread : Nat) (blocks : List HeapBlock) :
    (walker.visitBlocks unread blocks).Unaware := by
  induction blocks generalizing unread with
  | nil => exact .pure unread
  | cons block rest ih =>
      have visits : (walker.visitBlock block).Unaware := by
        unfold visitBlock
        rw [bare]
        exact (walker.printing_printBlock block).unaware.bind fun _ => .pure false
      exact visits.bind fun missed => ih (unread + missed.toNat)

theorem unaware_showHeap (id : HeapId) (first : HeapBlock) (rest : List HeapBlock) :
    (walker.showHeap id first rest).Unaware := by
  have measures : (walker.measure (first :: rest)).Unaware :=
    inward_resetHistogram.unaware.bind fun _ => (unaware_visitBlocks bare 0 _).bind fun unread =>
      inward_countedBytes.unaware.bind fun histogram => .pure _
  refine (printing_writeLine _).unaware.bind fun _ => ?_
  refine Unaware.bind (measures.bind fun _ => .pure _) fun stats => ?_
  exact (printing_printStats stats).unaware.bind fun _ => .pure stats

theorem unaware_walkHeaps (summary : HeapSummary) (heaps : List HeapId) :
    (walker.walkHeaps summary heaps).Unaware := by
  induction heaps generalizing summary with
  | nil => exact .pure summary
  | cons id rest ih =>
      unfold walkHeaps
      split
      · rename_i first others _
        exact (unaware_showHeap bare id first others).bind fun stats => ih _
      · exact ih _

/-- A walk that reads no contents takes no notice of the number of reads. -/
theorem unaware_walk : walker.walk.Unaware := by
  unfold walk
  split
  · exact (printing_writeLine _).unaware.bind fun _ => .pure _
  · rename_i heaps _
    refine (printing_printNone heaps).unaware.bind fun _ => ?_
    refine (unaware_walkHeaps bare {} heaps).bind fun summary => ?_
    exact (printing_writeLine "").unaware.bind fun _ => .pure summary

end Bare

end HeapWalker

theorem HeapListing.recites_walk (listing : HeapListing) (listsBlocks : Bool)
    (reader : Option (Except MemoryError Target)) :
    (listing.walk listsBlocks reader).Recites Run.IsRefusal := by
  unfold HeapListing.walk
  rcases reader with _ | cause | target
  · exact HeapWalker.recites_walk _
  · refine (Run.printing_writeLine _).recites.bind fun _ => ?_
    exact (Run.printing_writeLine _).recites.bind fun _ => HeapWalker.recites_walk _
  · exact HeapWalker.recites_walk _

theorem HeapListing.unaware_walk (listing : HeapListing) (listsBlocks : Bool) :
    (listing.walk listsBlocks none).Unaware := by
  unfold HeapListing.walk
  exact HeapWalker.unaware_walk rfl

end MemoryProbe
