import MemoryProbe.Heap.Walk
import MemoryProbe.Proofs.Writing

namespace MemoryProbe

/-!
What a walk through heaps has done where it comes to an answer.  All heaps share one
histogram and one buffer, which never shrinks.  Visiting blocks counts the contents of
those that are read in full, whatever lay in the buffer before, and finding out about a
heap begins with a reset.
-/

/-- The contents of a block, if the read of that number answers all of them. -/
def Target.contents? (reader : Target) (reads : Nat) (block : HeapBlock) :
    Option (List UInt8) :=
  match reader.read reads block.address block.size.toNat with
  | .error _ => none
  | .ok bytes => if bytes.length = block.size.toNat then some bytes else none

/-- The blocks that are read in full, each with its contents, if all blocks are read one
after the other and the first one by the read of that number. -/
def Target.fullReads (reader : Target) (reads : Nat) (blocks : List HeapBlock) :
    List (HeapBlock × List UInt8) :=
  (blocks.zipIdx reads).filterMap fun entry =>
    (reader.contents? entry.2 entry.1).map fun bytes => (entry.1, bytes)

/-- The bytes that blocks read in full hold together. -/
def Target.fullBytes (reader : Target) (reads : Nat) (blocks : List HeapBlock) : List UInt8 :=
  ((reader.fullReads reads blocks).map Prod.snd).flatten

/-- The blocks of a heap cannot be had, or there are none. -/
def HeapListing.Lacks (listing : HeapListing) (id : HeapId) : Prop :=
  (∃ cause, listing.blocks id = .error cause) ∨ listing.blocks id = .ok []

theorem HeapListing.holds_or_lacks (listing : HeapListing) (id : HeapId) :
    (∃ first others, listing.blocks id = .ok (first :: others)) ∨ listing.Lacks id := by
  cases blocks : listing.blocks id with
  | error cause => exact Or.inr (Or.inl ⟨cause, blocks⟩)
  | ok all =>
      cases all with
      | nil => exact Or.inr (Or.inr blocks)
      | cons first others => exact Or.inl ⟨first, others, rfl⟩

namespace Histogram

variable (histogram : Histogram)

theorem add_append (first second : List UInt8) :
    histogram.add (first ++ second) = (histogram.add first).add second := by
  unfold add
  simp only [List.foldl_append, List.length_append, Nat.add_assoc]

end Histogram

namespace Target

variable {reader : Target} {reads : Nat} {block : HeapBlock} {blocks : List HeapBlock}
  {bytes : List UInt8}

/-- Contents that are answered have the size of their block. -/
theorem length_of_contents? (known : reader.contents? reads block = some bytes) :
    bytes.length = block.size.toNat := by
  unfold contents? at known
  split at known
  · cases known
  · split at known
    · rename_i whole
      cases known
      exact whole
    · cases known

theorem fullReads_cons_of_some (known : reader.contents? reads block = some bytes) :
    reader.fullReads reads (block :: blocks) =
      (block, bytes) :: reader.fullReads (reads + 1) blocks := by
  unfold fullReads
  rw [List.zipIdx_cons, List.filterMap_cons, known]
  rfl

theorem fullReads_cons_of_none (unknown : reader.contents? reads block = none) :
    reader.fullReads reads (block :: blocks) = reader.fullReads (reads + 1) blocks := by
  unfold fullReads
  rw [List.zipIdx_cons, List.filterMap_cons, unknown]
  rfl

end Target

namespace HeapWalker

variable {walker : HeapWalker} {reader : Target} {block : HeapBlock} {blocks : List HeapBlock}
  {trace later : Trace}

/-! ## One block -/

theorem exists_of_growBuffer {length : Nat} {answer : Unit}
    (ran : growBuffer length trace = (.ok answer, later)) :
    ∃ buffer, later = { trace with buffer := buffer } ∧ length ≤ buffer.length := by
  unfold growBuffer at ran
  split at ran
  · rename_i roomy
    cases ran
    exact ⟨trace.buffer, rfl, roomy⟩
  · split at ran
    · cases ran
      refine ⟨_, rfl, ?_⟩
      rw [List.length_append, List.length_replicate]
      omega
    · cases ran

/-- Bytes that fit into the buffer lie at its front. -/
theorem take_of_fillBuffer {bytes filled : List UInt8}
    (ran : fillBuffer bytes trace = (.ok filled, later)) :
    (∃ buffer, later = { trace with buffer := buffer }) ∧
      (bytes.length ≤ trace.buffer.length -> filled.take bytes.length = bytes) := by
  unfold fillBuffer at ran
  cases ran
  refine ⟨⟨_, rfl⟩, fun fits => ?_⟩
  rw [List.take_take, Nat.min_eq_left fits, List.take_left]

theorem exists_of_countBytes {bytes : List UInt8} {answer : Unit}
    (ran : countBytes bytes trace = (.ok answer, later)) :
    later = { trace with histogram := trace.histogram.add bytes } := by
  unfold countBytes at ran
  split at ran
  · cases ran
    rfl
  · cases ran

/-- Accumulating a block asks for it once and counts its contents, if they are answered in
full. -/
theorem of_accumulate {read : Bool}
    (ran : accumulate reader block trace = (.ok read, later)) :
    later.reads = trace.reads + 1 ∧
      read = (reader.contents? trace.reads block).isSome ∧
      later.histogram =
        trace.histogram.add ((reader.contents? trace.reads block).getD []) := by
  rcases Run.exists_of_bind ran with ⟨_, grown, grew, ran⟩
  rcases exists_of_growBuffer grew with ⟨buffer, rfl, roomy⟩
  rcases Run.exists_of_bind ran with ⟨answer, asked, told, ran⟩
  cases told
  unfold Target.contents?
  dsimp only at ran ⊢
  cases answered : reader.read trace.reads block.address block.size.toNat with
  | error cause =>
      rw [answered] at ran
      cases ran
      exact ⟨rfl, rfl, rfl⟩
  | ok bytes =>
      rw [answered] at ran
      rcases Run.exists_of_bind ran with ⟨filled, stored, fill, ran⟩
      rcases take_of_fillBuffer fill with ⟨⟨other, rfl⟩, front⟩
      dsimp only at ran ⊢
      split at ran
      · rename_i whole
        rcases Run.exists_of_bind ran with ⟨_, counted, count, ran⟩
        rw [exists_of_countBytes count] at ran
        cases ran
        rw [<- whole, front (whole ▸ roomy), if_pos rfl]
        exact ⟨rfl, rfl, rfl⟩
      · rename_i short
        cases ran
        rw [if_neg short]
        exact ⟨rfl, rfl, rfl⟩

/-! ## What is only printed -/

theorem prints_printBlock (walker : HeapWalker) (block : HeapBlock) :
    (walker.printBlock block).Prints () := by
  unfold printBlock
  split
  · exact Run.prints_writeLine _
  · exact Run.prints_pure ()

theorem prints_printUnread (walker : HeapWalker) (block : HeapBlock) :
    (walker.printUnread block).Prints () := by
  have place : (walker.printPlace block).Prints () := by
    unfold printPlace
    split
    · exact Run.prints_pure ()
    · exact Run.prints_writeLine _
  exact place.bind (Run.prints_writeLine _)

theorem prints_printHeading (id : HeapId) : (printHeading id).Prints () :=
  Run.prints_writeLine _

/-- Telling of a heap meets no fault if it has a size. -/
theorem prints_printStats {stats : HeapStats} {size : Word} (known : stats.size = .ok size) :
    (printStats stats).Prints () := by
  refine (Run.prints_writeLine _).bind ((Run.prints_writeLine _).bind ?_)
  refine (Run.prints_ofChecked known).bind ((Run.prints_writeLine _).bind ?_)
  cases stats.entropy with
  | none => exact Run.prints_pure ()
  | some entropy => exact Run.prints_writeLine _

theorem prints_printNone (heaps : List HeapId) : (printNone heaps).Prints () := by
  unfold printNone
  split
  · exact Run.prints_writeLine _
  · exact Run.prints_pure ()

/-! ## Blocks of a heap -/

/-- Without a reader, visiting a block leaves the histogram as it was. -/
theorem of_visitBlock_unread {missed : Bool} (unread : walker.reader = none)
    (ran : walker.visitBlock block trace = (.ok missed, later)) : missed = false := by
  rcases Run.exists_of_bind ran with ⟨_, printed, -, ran⟩
  rw [unread] at ran
  cases ran
  rfl

/-- Visiting a block asks a reader for it once and counts its contents, if they are
answered in full; otherwise the block is left unread. -/
theorem of_visitBlock {missed : Bool} (reads : walker.reader = some reader)
    (ran : walker.visitBlock block trace = (.ok missed, later)) :
    later.reads = trace.reads + 1 ∧
      missed = (reader.contents? trace.reads block).isNone ∧
      later.histogram =
        trace.histogram.add ((reader.contents? trace.reads block).getD []) := by
  rcases Run.exists_of_bind ran with ⟨_, printed, prints, ran⟩
  rcases (walker.prints_printBlock block).exists_sink prints with ⟨sink, rfl⟩
  rw [reads] at ran
  rcases Run.exists_of_bind ran with ⟨read, counted, counts, ran⟩
  rcases of_accumulate counts with ⟨asked, full, histogram⟩
  rw [<- Option.not_isSome, <- full]
  cases read with
  | true =>
      cases ran
      exact ⟨asked, rfl, histogram⟩
  | false =>
      rcases Run.exists_of_bind ran with ⟨_, told, tells, ran⟩
      rcases (walker.prints_printUnread block).exists_sink tells with ⟨sink, rfl⟩
      cases ran
      exact ⟨asked, rfl, histogram⟩

/-- Visiting blocks asks for each of them once and counts the contents of those that are
answered in full.  The others are left unread. -/
theorem of_visitBlocks {unread total : Nat} (reads : walker.reader = some reader)
    (ran : walker.visitBlocks unread blocks trace = (.ok total, later)) :
    later.reads = trace.reads + blocks.length ∧
      total + (reader.fullReads trace.reads blocks).length = unread + blocks.length ∧
      later.histogram = trace.histogram.add (reader.fullBytes trace.reads blocks) := by
  induction blocks generalizing unread trace with
  | nil =>
      cases ran
      exact ⟨rfl, rfl, rfl⟩
  | cons block blocks ih =>
      rcases Run.exists_of_bind ran with ⟨missed, middle, visited, ran⟩
      rcases of_visitBlock reads visited with ⟨asked, left, counted⟩
      rcases ih ran with ⟨all, number, histogram⟩
      rw [asked] at all number histogram
      rw [counted] at histogram
      unfold Target.fullBytes at histogram ⊢
      rw [List.length_cons]
      cases known : reader.contents? trace.reads block with
      | none =>
          rw [known] at left histogram
          cases left
          rw [Target.fullReads_cons_of_none known]
          refine ⟨by omega, ?_, histogram⟩
          change _ = unread + 1 + _ at number
          omega
      | some bytes =>
          rw [known] at left histogram
          cases left
          rw [Target.fullReads_cons_of_some known, List.map_cons, List.flatten_cons,
            Histogram.add_append, List.length_cons]
          refine ⟨by omega, ?_, histogram⟩
          change _ = unread + 0 + _ at number
          omega

/-- Without a reader, no block is left unread. -/
theorem of_visitBlocks_unread {unread total : Nat} (silent : walker.reader = none)
    (ran : walker.visitBlocks unread blocks trace = (.ok total, later)) : total = unread := by
  induction blocks generalizing unread trace with
  | nil =>
      cases ran
      rfl
  | cons block blocks ih =>
      rcases Run.exists_of_bind ran with ⟨missed, middle, visited, ran⟩
      cases of_visitBlock_unread silent visited
      exact ih ran

/-! ## Heaps -/

theorem exists_of_measure {unread : Nat} {histogram : Histogram}
    (ran : walker.measure blocks trace = (.ok (unread, histogram), later)) :
    walker.visitBlocks 0 blocks { trace with histogram := Histogram.empty } =
        (.ok unread, later) ∧ later.histogram = histogram := by
  rcases Run.exists_of_bind ran with ⟨_, reset, forgot, ran⟩
  cases forgot
  rcases Run.exists_of_bind ran with ⟨total, visited, visits, ran⟩
  rcases Run.exists_of_bind ran with ⟨counted, told, tells, ran⟩
  cases tells
  cases ran
  exact ⟨visits, rfl⟩

/-- Measuring blocks counts exactly the contents of those that are read in full. -/
theorem of_measure {unread : Nat} {histogram : Histogram} (reads : walker.reader = some reader)
    (ran : walker.measure blocks trace = (.ok (unread, histogram), later)) :
    unread + (reader.fullReads trace.reads blocks).length = blocks.length ∧
      histogram = Histogram.empty.add (reader.fullBytes trace.reads blocks) := by
  rcases exists_of_measure ran with ⟨visited, rfl⟩
  rcases of_visitBlocks reads visited with ⟨-, number, counted⟩
  rw [Nat.zero_add] at number
  exact ⟨number, counted⟩

/-- What walking a heap finds out. -/
theorem exists_of_walkHeap {id : HeapId} {first : HeapBlock} {rest : List HeapBlock}
    {stats : HeapStats} (ran : walker.walkHeap id first rest trace = (.ok stats, later)) :
    ∃ unread histogram,
      walker.measure (first :: rest) trace = (.ok (unread, histogram), later) ∧
      stats = walker.stats id first rest unread histogram := by
  rcases Run.exists_of_bind ran with ⟨⟨unread, histogram⟩, measured, measures, ran⟩
  cases ran
  exact ⟨unread, histogram, measures, rfl⟩

theorem exists_of_showHeap {id : HeapId} {first : HeapBlock} {rest : List HeapBlock}
    {stats : HeapStats} (ran : walker.showHeap id first rest trace = (.ok stats, later)) :
    ∃ headed walked, printHeading id trace = (.ok (), headed) ∧
      walker.walkHeap id first rest headed = (.ok stats, walked) := by
  rcases Run.exists_of_bind ran with ⟨_, headed, heads, ran⟩
  rcases Run.exists_of_bind ran with ⟨found, walked, walks, ran⟩
  rcases Run.exists_of_bind ran with ⟨_, printed, -, ran⟩
  cases ran
  exact ⟨headed, walked, heads, walks⟩

theorem walkHeaps_of_holds {summary : HeapSummary} {id : HeapId} {heaps : List HeapId}
    {first : HeapBlock} {others : List HeapBlock}
    (holds : walker.listing.blocks id = .ok (first :: others)) :
    walker.walkHeaps summary (id :: heaps) = (do
      let stats <- walker.showHeap id first others
      walker.walkHeaps { summary with heaps := summary.heaps ++ [stats] } heaps) := by
  rw [walkHeaps, holds]

theorem walkHeaps_of_lacks {summary : HeapSummary} {id : HeapId} {heaps : List HeapId}
    (lacks : walker.listing.Lacks id) :
    walker.walkHeaps summary (id :: heaps) =
      walker.walkHeaps { summary with skippedHeaps := summary.skippedHeaps + 1 } heaps := by
  rcases lacks with ⟨cause, fails⟩ | none
  · rw [walkHeaps, fails]
  · rw [walkHeaps, none]

/-- The way of a walk through heaps that comes to an answer: the heaps that it lists, and
how many it skips. -/
inductive Passes (walker : HeapWalker) :
    Trace -> List HeapId -> List HeapStats -> Nat -> Trace -> Prop where
  | ends {trace : Trace} : Passes walker trace [] [] 0 trace
  /-- A heap with blocks is listed. -/
  | lists {trace middle later : Trace} {id : HeapId} {first : HeapBlock}
    {others : List HeapBlock} {heaps : List HeapId} {stats : HeapStats}
    {found : List HeapStats} {skipped : Nat}
    (holds : walker.listing.blocks id = .ok (first :: others))
    (shown : walker.showHeap id first others trace = (.ok stats, middle))
    (rest : Passes walker middle heaps found skipped later) :
    Passes walker trace (id :: heaps) (stats :: found) skipped later
  /-- A heap that lacks blocks is skipped. -/
  | skips {trace later : Trace} {id : HeapId} {heaps : List HeapId}
    {found : List HeapStats} {skipped : Nat} (lacks : walker.listing.Lacks id)
    (rest : Passes walker trace heaps found skipped later) :
    Passes walker trace (id :: heaps) found (skipped + 1) later

/-- A walk through heaps puts what it finds behind what was found before. -/
theorem exists_passes {heaps : List HeapId} {before summary : HeapSummary}
    (ran : walker.walkHeaps before heaps trace = (.ok summary, later)) :
    ∃ found skipped, walker.Passes trace heaps found skipped later ∧
      summary.heaps = before.heaps ++ found ∧
      summary.skippedHeaps = before.skippedHeaps + skipped := by
  induction heaps generalizing before trace with
  | nil =>
      cases ran
      exact ⟨[], 0, .ends, (List.append_nil _).symm, rfl⟩
  | cons id heaps ih =>
      rcases walker.listing.holds_or_lacks id with ⟨first, others, holds⟩ | lacks
      · rw [walkHeaps_of_holds holds] at ran
        rcases Run.exists_of_bind ran with ⟨stats, middle, shown, ran⟩
        rcases ih ran with ⟨found, skipped, passes, listed, left⟩
        refine ⟨stats :: found, skipped, .lists holds shown passes, ?_, left⟩
        rw [listed, List.append_assoc, List.singleton_append]
      · rw [walkHeaps_of_lacks lacks] at ran
        rcases ih ran with ⟨found, skipped, passes, listed, left⟩
        refine ⟨found, skipped + 1, .skips lacks passes, listed, ?_⟩
        rw [left]
        change before.skippedHeaps + 1 + skipped = _
        omega

/-- Heaps that cannot be listed are none. -/
theorem summary_of_unlisted {cause : MemoryError} {summary : HeapSummary}
    (fails : walker.listing.heaps = .error cause)
    (ran : walker.walk trace = (.ok summary, later)) : summary = {} := by
  unfold walk at ran
  rw [fails] at ran
  rcases Run.exists_of_bind ran with ⟨_, printed, -, ran⟩
  cases ran
  rfl

/-- A walk that comes to an answer passes all heaps that are listed. -/
theorem exists_passes_of_walk {heaps : List HeapId} {summary : HeapSummary}
    (listed : walker.listing.heaps = .ok heaps)
    (ran : walker.walk trace = (.ok summary, later)) :
    ∃ began ended, printNone heaps trace = (.ok (), began) ∧
      walker.Passes began heaps summary.heaps summary.skippedHeaps ended := by
  unfold walk at ran
  rw [listed] at ran
  rcases Run.exists_of_bind ran with ⟨_, began, begins, ran⟩
  rcases Run.exists_of_bind ran with ⟨all, ended, walked, ran⟩
  rcases Run.exists_of_bind ran with ⟨_, closed, -, ran⟩
  cases ran
  rcases exists_passes walked with ⟨found, skipped, passes, same, left⟩
  change summary.heaps = [] ++ found at same
  change summary.skippedHeaps = 0 + skipped at left
  rw [List.nil_append] at same
  rw [Nat.zero_add] at left
  exact ⟨began, ended, begins, same ▸ left ▸ passes⟩

/-- The walk through a heap that a walk lists, and what it finds out. -/
theorem Passes.exists_walkHeap {heaps : List HeapId} {found : List HeapStats} {skipped : Nat}
    (passes : walker.Passes trace heaps found skipped later) {stats : HeapStats}
    (member : stats ∈ found) :
    ∃ id first others before after, id ∈ heaps ∧
      walker.listing.blocks id = .ok (first :: others) ∧
      walker.walkHeap id first others before = (.ok stats, after) := by
  induction passes with
  | ends => exact absurd member List.not_mem_nil
  | @lists trace middle _ id first others heaps _ _ _ holds shown rest ih =>
      rcases List.mem_cons.mp member with rfl | later
      · rcases exists_of_showHeap shown with ⟨headed, walked, -, walks⟩
        exact ⟨id, first, others, headed, walked, List.mem_cons_self, holds, walks⟩
      · rcases ih later with ⟨other, front, back, before, after, listed, walks⟩
        exact ⟨other, front, back, before, after, List.mem_cons_of_mem _ listed, walks⟩
  | skips lacks rest ih =>
      rcases ih member with ⟨other, front, back, before, after, listed, walks⟩
      exact ⟨other, front, back, before, after, List.mem_cons_of_mem _ listed, walks⟩

end HeapWalker

/-- The walker of a listing, with the reader whose opening succeeded. -/
def HeapListing.walker (listing : HeapListing) (listsBlocks : Bool)
    (reader : Option (Except MemoryError Target)) : HeapWalker where
  listing := listing
  listsBlocks := listsBlocks
  reader := reader.bind Except.toOption

/-- Walking a listing is what its walker does, perhaps behind a notice. -/
theorem HeapListing.exists_walk {listing : HeapListing} {listsBlocks : Bool}
    {reader : Option (Except MemoryError Target)} {trace later : Trace} {summary : HeapSummary}
    (ran : listing.walk listsBlocks reader trace = (.ok summary, later)) :
    ∃ began, (listing.walker listsBlocks reader).walk began = (.ok summary, later) := by
  rcases reader with _ | cause | target
  · exact ⟨trace, ran⟩
  · rcases Run.exists_of_bind ran with ⟨_, told, -, ran⟩
    rcases Run.exists_of_bind ran with ⟨_, warned, -, ran⟩
    exact ⟨warned, ran⟩
  · exact ⟨trace, ran⟩

end MemoryProbe
