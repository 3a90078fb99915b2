import MemoryProbe.Kernel.LiveWalk
import MemoryProbe.Proofs.Heap.Extents
import MemoryProbe.Proofs.Heap.Reciting
import MemoryProbe.Proofs.Timing

namespace MemoryProbe

/-!
Live walks and walks of a listing.  The reads of a live walk go to headers and to contents in
turn.  A listing whose headers are read at the times of the ones, walked with a reader that reads
at the times of the others, comes to the same.  So what holds of the walks of all listings,
whatever the memory answers, holds of live walks, and at a process that does not change the two
are one.
-/

/-- A target of which each read is one of another target, at a time of its own. -/
def Target.retimed (target : Target) (times : Nat -> Nat) : Target :=
  { target with read := fun reads => target.read (times reads) }

def HeapWalker.retimed (walker : HeapWalker) (times : Nat -> Nat) : HeapWalker :=
  { walker with reader := walker.reader.map fun reader => reader.retimed times }

/-- At a process that does not change, the times of reads do not matter. -/
theorem Target.Timeless.retimed_eq {target : Target} (still : target.Timeless)
    (times : Nat -> Nat) : target.retimed times = target := by
  unfold retimed
  congr 1
  funext reads address length
  exact still _ _ _ _

theorem HeapWalker.retimed_eq {walker : HeapWalker}
    (fixed : forall reader, walker.reader = some reader -> reader.Timeless)
    (times : Nat -> Nat) : walker.retimed times = walker := by
  unfold retimed
  congr 1
  cases reads : walker.reader with
  | none => rfl
  | some reader => exact congrArg some ((fixed reader reads).retimed_eq times)

/-! ## Headers -/

namespace Chunk

/-- The size word behind a block, if the read of that number tells one. -/
def behind? (target : Target) (reads : Nat) (stop heapStop : Word) : Option Word :=
  if headerFits stop heapStop then (readSize target reads stop).1.toOption else none

/-- The blocks behind one that stops there, by the size word behind it. -/
def blocksBehind (target : Target) (reads : Nat) (stop heapStop : Word)
    (behind : Option Word) : List HeapBlock :=
  behind.elim [] fun sizeWord => (walkFrom target reads stop heapStop sizeWord).1

variable {target : Target} {block stop heapStop sizeWord : Word}

theorem walkFrom_of_unsized (unsized : blockStop? block heapStop sizeWord = none) (reads : Nat) :
    walkFrom target reads block heapStop sizeWord = ([], []) := by
  rw [walkFrom]
  split
  · rfl
  · rename_i past sized
    cases unsized.symm.trans sized

/-- A block is listed with the blocks behind it. -/
theorem walkFrom_eq (target : Target)
    (sized : blockStop? block heapStop sizeWord = some stop) (reads count : Nat)
    (told : (behind? target reads stop heapStop).isSome = true -> count = reads + 1) :
    (walkFrom target reads block heapStop sizeWord).1 =
      entry block sizeWord (behind? target reads stop heapStop) ::
        blocksBehind target count stop heapStop (behind? target reads stop heapStop) := by
  unfold behind? at told ⊢
  rw [walkFrom]
  split
  · rename_i unsized
    cases sized.symm.trans unsized
  · rename_i past ends
    cases sized.symm.trans ends
    by_cases fits : headerFits stop heapStop = true
    · rw [if_pos fits] at told
      rw [if_pos fits, if_pos fits]
      split
      · rename_i next places read
        rcases readSize_of_tells (tells_of_readSize (by rw [read])) with ⟨place, -, only⟩
        cases read.symm.trans only
        rw [read] at told ⊢
        cases told rfl
        rfl
      · rename_i cause places read
        rw [read]
        rfl
    · rw [if_neg fits, if_neg fits]
      rfl

theorem blocks_of_error {heapStart : Word} {cause : MemoryError}
    (fails : (readSize target 0 heapStart).1 = .error cause) :
    blocks target heapStart heapStop = .error cause := by
  unfold blocks walk
  rcases read : readSize target 0 heapStart with ⟨outcome, places⟩
  rw [read] at fails
  cases fails
  rfl

theorem blocks_of_ok {heapStart : Word}
    (tells : (readSize target 0 heapStart).1 = .ok sizeWord) :
    blocks target heapStart heapStop =
      .ok (walkFrom target 1 heapStart heapStop sizeWord).1 := by
  unfold blocks walk
  rcases readSize_of_tells (tells_of_readSize tells) with ⟨place, -, only⟩
  rw [only]
  rfl

/-- Reading a size word takes one read, or none and there is none whatever the memory
answers. -/
theorem exists_next_of_readSizeIn (target : Target) (block : Word) (trace : Trace) :
    ∃ own, NextRead trace.reads own ∧
      readSizeIn target block trace = (.ok (readSize target trace.reads block).1.toOption,
        { trace with reads := trace.reads + own.length }) ∧
      ((readSize target trace.reads block).1.toOption.isSome = true -> own.length = 1) ∧
      forall times count, ReadAt times count own ->
        readSize (target.retimed times) count block = readSize target trace.reads block := by
  cases sum : Word.add? block wordSize with
  | none =>
      have unread (any : Target) (reads : Nat) :
          readSize any reads block = (.error (.readFailed ⟨block⟩ 0), []) := by
        unfold readSize
        rw [sum]
      refine ⟨[], .none, ?_, fun told => ?_, fun times count _ => ?_⟩
      · unfold readSizeIn
        rw [unread]
        rfl
      · rw [unread] at told
        cases told
      · rw [unread, unread]
  | some place =>
      refine ⟨[trace.reads], .one, ?_, fun _ => rfl, fun times count known => ?_⟩
      · rcases readSize_places target trace.reads block with ⟨beyond, -⟩ | ⟨_, -, only⟩
        · cases sum.symm.trans (Word.add?_eq_none_iff.mpr beyond)
        · unfold readSizeIn
          dsimp only
          rw [only]
          rfl
      · rw [<- ReadAt.singleton_iff.mp known]
        rfl

/-- Reading the size word behind a block does so as well. -/
theorem exists_next_of_readBehind (target : Target) (stop heapStop : Word) (trace : Trace) :
    ∃ own, NextRead trace.reads own ∧
      readBehind target stop heapStop trace = (.ok (behind? target trace.reads stop heapStop),
        { trace with reads := trace.reads + own.length }) ∧
      ((behind? target trace.reads stop heapStop).isSome = true -> own.length = 1) ∧
      forall times count, ReadAt times count own ->
        behind? (target.retimed times) count stop heapStop =
          behind? target trace.reads stop heapStop := by
  unfold behind? readBehind
  by_cases fits : headerFits stop heapStop = true
  · simp only [if_pos fits]
    rcases exists_next_of_readSizeIn target stop trace with ⟨own, next, ran, told, again⟩
    refine ⟨own, next, ran, told, fun times count known => ?_⟩
    rw [again times count known]
  · simp only [if_neg fits]
    exact ⟨[], .none, rfl, nofun, fun _ _ _ => trivial⟩

end Chunk

/-! ## Blocks -/

namespace HeapWalker

open Run Chunk

variable {walker : HeapWalker} {trace other : Trace}

/-- How many reads a walker makes for the contents of a block. -/
def readsEach (walker : HeapWalker) : Nat :=
  walker.reader.isSome.toNat

theorem readsEach_retimed (walker : HeapWalker) (times : Nat -> Nat) :
    (walker.retimed times).readsEach = walker.readsEach := by
  unfold readsEach retimed
  rw [Option.isSome_map]

/-- Visiting a block makes so many reads. -/
theorem reads_of_visitBlock {block : HeapBlock} {missed : Bool} {later : Trace}
    (ran : walker.visitBlock block trace = (.ok missed, later)) :
    later.reads = trace.reads + walker.readsEach := by
  unfold readsEach
  cases reads : walker.reader with
  | none =>
      rcases Run.exists_of_bind ran with ⟨_, printed, prints, ran⟩
      rcases (walker.prints_printBlock block).exists_sink prints with ⟨sink, rfl⟩
      rw [reads] at ran
      cases ran
      rfl
  | some reader => exact (of_visitBlock reads ran).1

/-- Counting a block is in step with counting it by a read at another time. -/
theorem accumulate_inStep {reader : Target} {times : Nat -> Nat} (block : HeapBlock)
    (near : trace.Alike other) (same : times other.reads = trace.reads) :
    InStep (accumulate reader block trace) (accumulate (reader.retimed times) block other) := by
  have grows := (inward_growBuffer block.size.toNat).unaware
  refine (grows.inStep near).bind fun _ later after grew also close => ?_
  have kept := grows.reads_eq grew
  have left := grows.reads_eq also
  refine InStep.bind ⟨?_, ?_⟩ fun answer last _ _ _ still =>
    (inward_countContents _ _).unaware.inStep still
  · change Except.ok (reader.read (times after.reads) _ _) = _
    rw [left, same, <- kept]
    rfl
  · change { after with reads := _ } = _
    rw [close]
    rfl

/-- Visiting a block takes one read or none, and is in step with visiting it by a read at
another time. -/
theorem exists_next_of_visitBlock (walker : HeapWalker) (block : HeapBlock) (trace : Trace) :
    ∃ own, NextRead trace.reads own ∧ own.length = walker.readsEach ∧
      forall times other, ReadAt times other.reads own -> trace.Alike other ->
        InStep (walker.visitBlock block trace)
          ((walker.retimed times).visitBlock block other) := by
  have printed := (walker.printing_printBlock block).unaware
  have told : (walker.printUnread block >>= fun _ => pure true).Unaware :=
    (walker.printing_printUnread block).unaware.bind fun _ => .pure true
  unfold readsEach
  cases reads : walker.reader with
  | none =>
      refine ⟨[], .none, rfl, fun times other _ near => ?_⟩
      unfold visitBlock retimed
      rw [reads]
      exact (printed.bind fun _ => .pure false).inStep near
  | some reader =>
      refine ⟨[trace.reads], .one, rfl, fun times other known near => ?_⟩
      have same := ReadAt.singleton_iff.mp known
      unfold visitBlock retimed
      rw [reads]
      refine (printed.inStep near).bind fun _ later after ran also close => ?_
      have kept := printed.reads_eq ran
      have left : after.reads = other.reads := printed.reads_eq also
      refine (accumulate_inStep block close (by rw [left, same, kept])).bind
        fun whole last _ _ _ still => ?_
      cases whole with
      | true => exact ⟨rfl, still⟩
      | false => exact told.inStep still

/-- Visit listed blocks, and name them. -/
def visitListed (walker : HeapWalker) (unread : Nat) (blocks : List HeapBlock) :
    Run HeapError (List HeapBlock × Nat) := do
  let total <- walker.visitBlocks unread blocks
  return (blocks, total)

theorem visitListed_cons (walker : HeapWalker) (unread : Nat) (block : HeapBlock)
    (blocks : List HeapBlock) :
    walker.visitListed unread (block :: blocks) = (do
      let missed <- walker.visitBlock block
      let (rest, total) <- walker.visitListed (unread + missed.toNat) blocks
      return (block :: rest, total)) := by
  simp only [visitListed, visitBlocks, bind_assoc, pure_bind]

/-- Visiting blocks while they are listed is in step with visiting the list that the reads of
their headers make, by the reads of their contents. -/
theorem sharedOut_visitLive (walker : HeapWalker) (target : Target) (heapStop : Word)
    (unread : Nat) (block : HeapBlock) (stop : Word) (behind : Option Word) (trace : Trace)
    (count : Nat) :
    (walker.visitLive target heapStop unread block stop behind).SharedOut trace count
      fun clock times => (do
        let missed <- (walker.retimed times).visitBlock block
        (walker.retimed times).visitListed (unread + missed.toNat)
          (blocksBehind (target.retimed clock) count stop heapStop behind)) := by
  rcases walker.exists_next_of_visitBlock block trace with ⟨own, next, length, visits⟩
  rw [visitLive]
  refine .bind_contents next (fun _ _ ran => length ▸ reads_of_visitBlock ran)
    (fun times _ _ _ ran => ?_) visits fun missed later _ => ?_
  · rw [reads_of_visitBlock ran, readsEach_retimed, length]
  cases behind with
  | none => exact .of_unaware (.pure _)
  | some sizeWord =>
      dsimp only
      split
      · rename_i unsized
        have ends (clock : Nat -> Nat) :
            blocksBehind (target.retimed clock) count stop heapStop (some sizeWord) = [] := by
          unfold blocksBehind
          rw [Option.elim_some, walkFrom_of_unsized unsized]
        simp only [ends]
        exact .of_unaware (.pure _)
      · rename_i past sized
        rcases exists_next_of_readBehind target past heapStop later with
          ⟨header, after, read, told, again⟩
        have ih := walker.sharedOut_visitLive target heapStop (unread + missed.toNat)
          (entry stop sizeWord (behind? target later.reads past heapStop)) past
          (behind? target later.reads past heapStop)
          { later with reads := later.reads + header.length } (count + header.length)
        -- The list is known only for clocks that tell the header when it was read, so it is taken
        -- apart behind that read.
        refine .bind_header after read (ih.bind_last fun _ => .pure _) fun clock times known => ?_
        have same := again clock count known
        have listed := walkFrom_eq (target.retimed clock) sized count (count + header.length)
          fun some => by rw [told (same ▸ some)]
        unfold blocksBehind at listed ⊢
        rw [Option.elim_some, listed, same, visitListed_cons]
        simp only [bind_assoc]
termination_by UInt64.size - stop.toNat
decreasing_by
  exact Nat.sub_lt_sub_left stop.toNat_lt (lt_of_blockStop?_eq_some ‹_›)

/-! ## Heaps -/

theorem stats_retimed (walker : HeapWalker) (times : Nat -> Nat) :
    (walker.retimed times).stats = walker.stats := by
  unfold stats retimed
  simp only [Option.map_map]
  rfl

/-- Print the heading of a heap, walk its blocks and print what is found out, if it has any. -/
def showListed (walker : HeapWalker) (id : HeapId) :
    Except MemoryError (List HeapBlock) -> Run HeapError (Option HeapStats)
  | .ok (first :: rest) => do
    let stats <- walker.showHeap id first rest
    return some stats
  | _ => return none

/-- Walking the blocks of a live heap is in step with walking the list of them. -/
theorem sharedOut_walkLive (walker : HeapWalker) (target : Target) (id : HeapId)
    (heapStop : Word) (first : HeapBlock) (stop : Word) (behind : Option Word) (trace : Trace)
    (count : Nat) :
    (walker.walkLive target id heapStop first stop behind).SharedOut trace count
      fun clock times => (walker.retimed times).walkHeap id first
        (blocksBehind (target.retimed clock) count stop heapStop behind) := by
  have same (clock times : Nat -> Nat) : (walker.retimed times).walkHeap id first
      (blocksBehind (target.retimed clock) count stop heapStop behind) = (do
        resetHistogram
        let found <- (do
          let missed <- (walker.retimed times).visitBlock first
          (walker.retimed times).visitListed (0 + missed.toNat)
            (blocksBehind (target.retimed clock) count stop heapStop behind))
        let histogram <- countedBytes
        return walker.stats id first found.1 found.2 histogram) := by
    simp only [walkHeap, measure, visitListed, visitBlocks, stats_retimed, bind_assoc, pure_bind]
  simp only [same]
  refine .bind_unaware inward_resetHistogram.unaware fun _ later _ => ?_
  exact (walker.sharedOut_visitLive target heapStop 0 first stop behind later count).bind_last
    fun _ => inward_countedBytes.unaware.bind fun _ => .pure _

/-- Walking a live heap from its first size word on is in step with walking the list that the
word leads to. -/
theorem sharedOut_showFrom (walker : HeapWalker) (target : Target) (id : HeapId)
    (heapStart heapStop sizeWord : Word) (trace : Trace) :
    (walker.showFrom target id heapStart heapStop sizeWord).SharedOut trace 1
      fun clock times => (walker.retimed times).showListed id
        (.ok (walkFrom (target.retimed clock) 1 heapStart heapStop sizeWord).1) := by
  unfold showFrom
  cases sized : blockStop? heapStart heapStop sizeWord with
  | none =>
      simp only [walkFrom_of_unsized sized]
      exact .of_unaware (.pure none)
  | some stop =>
      rcases exists_next_of_readBehind target stop heapStop trace with
        ⟨own, next, read, told, again⟩
      have heading : (printHeading id).Unaware := (printing_writeLine _).unaware
      have prints (stats : HeapStats) :
          (do printStats stats; return some stats : Run HeapError _).Unaware :=
        (printing_printStats stats).unaware.bind fun _ => .pure _
      refine .bind_header next read (.bind_unaware heading fun _ later _ =>
        (walker.sharedOut_walkLive target id heapStop _ stop _ later _).bind_last prints)
        fun clock times known => ?_
      have same := again clock 1 known
      have listed := walkFrom_eq (target.retimed clock) sized 1 (1 + own.length)
        fun some => by rw [told (same ▸ some)]
      rw [listed, same]
      simp only [showListed, showHeap, bind_assoc, pure_bind]

/-- Walking a live heap is in step with walking the list of its blocks. -/
theorem sharedOut_showLive (walker : HeapWalker) (target : Target) (id : HeapId)
    (heapStart heapStop : Word) (trace : Trace) :
    (walker.showLive target id heapStart heapStop).SharedOut trace 0
      fun clock times => (walker.retimed times).showListed id
        (Chunk.blocks (target.retimed clock) heapStart heapStop) := by
  rcases exists_next_of_readSizeIn target heapStart trace with ⟨own, next, read, told, again⟩
  unfold showLive
  cases known : (readSize target trace.reads heapStart).1 with
  | error cause =>
      rw [known] at read
      refine .bind_header next read (.of_unaware (.pure none)) fun clock times fits => ?_
      rw [blocks_of_error (by rw [again clock 0 fits, known])]
      rfl
  | ok sizeWord =>
      rw [known] at read told
      have follows := walker.sharedOut_showFrom target id heapStart heapStop sizeWord
        { trace with reads := trace.reads + own.length }
      have one : 0 + own.length = 1 := by rw [told rfl]
      rw [<- one] at follows
      refine .bind_header next read follows fun clock times fits => ?_
      rw [blocks_of_ok (by rw [again clock 0 fits, known]), one]

theorem exists_inStep_of_showLive (walker : HeapWalker) (target : Target) (id : HeapId)
    (heapStart heapStop : Word) (near : trace.Alike other) :
    ∃ clock times, InStep (walker.showLive target id heapStart heapStop trace)
      ((walker.retimed times).showListed id
        (Chunk.blocks (target.retimed clock) heapStart heapStop) other) := by
  rcases walker.sharedOut_showLive target id heapStart heapStop trace with
    ⟨headers, contents, -, -, steps⟩
  rcases ReadAt.exists_times 0 headers with ⟨clock, known⟩
  rcases ReadAt.exists_times other.reads contents with ⟨times, asked⟩
  exact ⟨clock, times, steps clock times other known asked near⟩

theorem walkHeaps_eq (walker : HeapWalker) (summary : HeapSummary) (id : HeapId)
    (heaps : List HeapId) :
    walker.walkHeaps summary (id :: heaps) = (do
      let shown <- walker.showListed id (walker.listing.blocks id)
      walker.walkHeaps (summary.adjoin shown) heaps) := by
  rcases walker.listing.holds_or_lacks id with ⟨first, rest, holds⟩ | lacks
  · rw [walkHeaps_of_holds holds, holds]
    simp only [showListed, HeapSummary.adjoin, bind_assoc, pure_bind]
  · rw [walkHeaps_of_lacks lacks]
    rcases lacks with ⟨cause, fails⟩ | none
    · rw [fails]
      rfl
    · rw [none]
      rfl

/-- A live heap that is shown is one of which the list of blocks is walked. -/
theorem exists_walkHeap_of_showLive {target : Target} {id : HeapId} {heapStart heapStop : Word}
    {stats : HeapStats} {later : Trace}
    (ran : walker.showLive target id heapStart heapStop trace = (.ok (some stats), later)) :
    ∃ clock times first rest before after,
      Chunk.blocks (target.retimed clock) heapStart heapStop = .ok (first :: rest) ∧
        (walker.retimed times).walkHeap id first rest before = (.ok stats, after) := by
  rcases walker.exists_inStep_of_showLive target id heapStart heapStop (.refl trace) with
    ⟨clock, times, same, -⟩
  rw [ran] at same
  rcases shown : (walker.retimed times).showListed id
    (Chunk.blocks (target.retimed clock) heapStart heapStop) trace with ⟨outcome, ended⟩
  rw [shown] at same
  cases same
  rcases listed : Chunk.blocks (target.retimed clock) heapStart heapStop with
    cause | _ | ⟨first, rest⟩
  · rw [listed] at shown
    cases shown
  · rw [listed] at shown
    cases shown
  · rw [listed] at shown
    rcases Run.exists_of_bind shown with ⟨found, closed, shows, given⟩
    cases given
    rcases exists_of_showHeap shows with ⟨headed, walked, -, walks⟩
    exact ⟨clock, times, first, rest, headed, walked, listed, walks⟩

end HeapWalker

/-! ## Live walks -/

namespace LiveHeaps

open HeapWalker

variable {heaps : LiveHeaps} {target : Target} {walker : HeapWalker} {trace later : Trace}

/-- A heap that a live walk tells of was told of before, or was shown. -/
theorem exists_showLive_of_walkEach {ids : List HeapId} {before summary : HeapSummary}
    (ran : heaps.walkEach target walker before ids trace = (.ok summary, later))
    {stats : HeapStats} (member : stats ∈ summary.heaps) :
    stats ∈ before.heaps ∨ ∃ id range began ended, heaps.range? id = some range ∧
      walker.showLive target id range.1 range.2 began = (.ok (some stats), ended) := by
  induction ids generalizing before trace with
  | nil =>
      cases ran
      exact Or.inl member
  | cons id ids ih =>
      rw [walkEach] at ran
      rcases Run.exists_of_bind ran with ⟨_ | first, middle, shows, ran⟩
      · have among := ih ran
        exact among
      · rcases ih ran with known | shown
        · rcases List.mem_append.mp known with old | new
          · exact Or.inl old
          · rw [List.mem_singleton.mp new]
            unfold showNamed at shows
            cases named : heaps.range? id with
            | none =>
                rw [named] at shows
                cases shows
            | some range =>
                rw [named] at shows
                exact Or.inr ⟨id, range, trace, middle, named, shows⟩
        · exact Or.inr shown

/-- What a live walk tells of the heaps of a process, however its memory changes while it is
walked: each begins with its mapping, ends inside of it, and is exactly as long as its blocks,
which are those that its headers told when they were read. -/
theorem live_walk_tells_extents {process : LiveProcess} {summary : HeapSummary}
    (ran : (ofProcess process).walk target walker trace = (.ok summary, later))
    {stats : HeapStats} (member : stats ∈ summary.heaps) :
    ∃ mapping clock blocks, process.heap? stats.id = some mapping ∧
      Chunk.blocks (target.retimed clock) mapping.start mapping.stop = .ok blocks ∧
      stats.Encloses blocks ∧ stats.start = ⟨mapping.start⟩ ∧
      stats.stop.toNat ≤ mapping.stop.toNat ∧
      ∃ size, stats.size = .ok size ∧
        size.toNat = (blocks.map fun block => block.size.toNat).sum := by
  rcases Run.exists_of_bind ran with ⟨_, began, -, ran⟩
  rcases Run.exists_of_bind ran with ⟨all, walked, walks, ran⟩
  rcases Run.exists_of_bind ran with ⟨_, closed, -, ran⟩
  cases ran
  rcases exists_showLive_of_walkEach walks member with old | ⟨id, range, start, ended, named, shows⟩
  · exact absurd old List.not_mem_nil
  · rcases exists_walkHeap_of_showLive shows with ⟨clock, times, first, rest, _, _, blocks, ran⟩
    rw [range?_ofProcess] at named
    rcases Option.map_eq_some_iff.mp named with ⟨mapping, found, rfl⟩
    rcases exact_of_walkHeap blocks ran with ⟨rfl, exact⟩
    exact ⟨mapping, clock, first :: rest, found, blocks, exact⟩

/-! ## Processes that do not change -/

section Timeless

variable (still : target.Timeless) (fixed : forall reader, walker.reader = some reader ->
  reader.Timeless) (lists : walker.listing = heaps.listing target)

include still fixed lists

/-- Showing a live heap is in step with walking the list of its blocks. -/
theorem showNamed_inStep (id : HeapId) {other : Trace} (near : trace.Alike other) :
    Run.InStep (heaps.showNamed target walker id trace)
      (walker.showListed id (walker.listing.blocks id) other) := by
  have blocks : walker.listing.blocks id = heaps.blocks target id := by rw [lists]; rfl
  rw [blocks]
  unfold showNamed LiveHeaps.blocks
  cases heaps.range? id with
  | none => exact ⟨rfl, near⟩
  | some range =>
      rcases walker.exists_inStep_of_showLive target id range.1 range.2 near with
        ⟨clock, times, shows⟩
      rw [still.retimed_eq, retimed_eq fixed] at shows
      exact shows

theorem walkEach_inStep (summary : HeapSummary) (ids : List HeapId) {other : Trace}
    (near : trace.Alike other) :
    Run.InStep (heaps.walkEach target walker summary ids trace)
      (walker.walkHeaps summary ids other) := by
  induction ids generalizing summary trace other with
  | nil => exact ⟨rfl, near⟩
  | cons id ids ih =>
      rw [walkEach, walkHeaps_eq]
      exact (showNamed_inStep still fixed lists id near).bind fun shown _ _ _ _ close => ih _ close

/-- At a process that does not change, a live walk and the walk of a listing come to the same
and write the same. -/
theorem live_walk_inStep (trace : Trace) :
    Run.InStep (heaps.walk target walker trace) (walker.walk trace) := by
  have listed : walker.listing.heaps = .ok heaps.ids := by rw [lists]; rfl
  unfold LiveHeaps.walk HeapWalker.walk
  rw [listed]
  refine ((printing_printNone heaps.ids).unaware.inStep (.refl trace)).bind
    fun _ _ _ _ _ near => ?_
  refine (walkEach_inStep still fixed lists {} heaps.ids near).bind fun summary _ _ _ _ close => ?_
  have ends : (do Run.writeLine ""; return summary : Run HeapError HeapSummary).Unaware :=
    (Run.printing_writeLine "").unaware.bind fun _ => .pure summary
  exact ends.inStep close

end Timeless

end LiveHeaps
end MemoryProbe
