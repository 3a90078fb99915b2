import MemoryProbe.Proofs.Pool.Faultless
import MemoryProbe.Search.Scan

namespace MemoryProbe

/-!
The read phase of a scan.  One reader that handles the blocks in order and a pool
of workers that take their steps in any order come to the same outcome.
-/

namespace Scanner

/-- What a pool of workers can make of some blocks, beginning with a trace. -/
inductive PoolRun (scanner : Scanner) (work : PoolWork) (trace : Trace) :
    Except (Halt ScanError) ReadOutcome × Trace -> Prop where
  | idle (unmanned : work.reader.workerCount work.blocks.length = 0) :
    PoolRun scanner work trace (.ok ⟨[], 0, 0⟩, trace)
  | cramped (cause : ScanError)
    (manned : work.reader.workerCount work.blocks.length ≠ 0)
    (refused : Pool.start work
      (UInt64.ofNat (work.reader.workerCount work.blocks.length)) scanner.budget trace =
      .error cause) :
    PoolRun scanner work trace (.error (.failure cause), trace)
  | ends (first last : Pool)
    (manned : work.reader.workerCount work.blocks.length ≠ 0)
    (started : Pool.start work
      (UInt64.ofNat (work.reader.workerCount work.blocks.length)) scanner.budget trace =
      .ok first)
    (reached : first.Leads work last) (done : last.isDone = true) :
    PoolRun scanner work trace (last.answer work, last.trace)

/-- A read phase is either that of one reader or that of a pool. -/
def ReadsBlocks (scanner : Scanner) (reads : ReadPhase) : Prop :=
  reads = scanner.readBlocks ∨
    forall pattern regions blocks trace,
      scanner.PoolRun ⟨scanner.reader, pattern, regions, blocks⟩ trace
        (reads pattern regions blocks trace)

end Scanner

namespace PoolWork

/-- The matches in each block; nothing for a block that was skipped. -/
def results (work : PoolWork) : List (Option (List Address)) :=
  work.blocks.map fun block => (work.handled block).hits?

/-- The outcome of reading the blocks with some workers. -/
def outcome (work : PoolWork) (workers : Nat) : ReadOutcome :=
  ⟨work.results.map fun result => result.getD [], workers, work.results.countP Option.isNone⟩

variable {work : PoolWork}

/-- Sound blocks that fit the budget are handled one after the other. -/
theorem handleBlocks_eq (sound : work.Sound) {workers : Nat} (manned : workers ≠ 0)
    {blocks : List ReadBlock} (planned : forall block, block ∈ blocks -> block ∈ work.blocks)
    {budget : Budget} (unused : budget.used = 0)
    (fits : forall block, block ∈ blocks -> block.length.toNat ≤ budget.ceiling.toNat)
    {tally : ReadTally} (calm : tally.faults = 0) (trace : Trace) :
    ∃ later sink,
      work.reader.handleBlocks work.pattern work.regions workers tally budget blocks trace =
        ((.ok { tally with
            hits := (blocks.map fun block => ((work.handled block).hits?).getD []).reverse ++
              tally.hits
            failedBlocks := tally.failedBlocks +
              (blocks.map fun block => (work.handled block).hits?).countP Option.isNone },
          later),
        { trace with reads := trace.reads + blocks.length, diagnostics := sink }) := by
  induction blocks generalizing tally budget trace with
  | nil => exact ⟨budget, trace.diagnostics, rfl⟩
  | cons block rest ih =>
      have whole := sound.handled_ne_faulted (planned block List.mem_cons_self)
      rcases handleBlock_eq work sound.timeless (fun _ => sound.honest) whole trace with
        ⟨sink, handled⟩
      have granted := Budget.acquire_unused unused (fits block List.mem_cons_self)
      have returned : ((budget.withUsed block.length).release block.length).used = 0 := by
        have back := @Budget.release_used (budget.withUsed block.length) block.length
          (Nat.le_refl _)
        rw [Budget.withUsed_used] at back
        apply UInt64.toNat_inj.mp
        change _ = 0
        omega
      unfold Reader.handleBlocks
      rw [if_neg (by omega), granted]
      dsimp only
      rw [handled]
      dsimp only
      have calm_add : (tally.add (work.handled block).hits?).faults = 0 := by
        cases (work.handled block).hits? <;> exact calm
      rcases ih (fun other member => planned other (List.mem_cons_of_mem _ member)) returned
        (fun other member => fits other (List.mem_cons_of_mem _ member)) calm_add
        { trace with reads := trace.reads + 1, diagnostics := sink } with ⟨later, last, rest_eq⟩
      refine ⟨later, last, rest_eq.trans ?_⟩
      cases found : (work.handled block).hits? with
      | none =>
          simp only [ReadTally.add, List.map_cons, found, List.reverse_cons, Option.getD_none,
            List.append_assoc, List.singleton_append, List.countP_cons, Option.isNone_none,
            if_true, List.length_cons, Nat.add_assoc, Nat.add_comm 1]
      | some hits =>
          simp only [ReadTally.add, List.map_cons, found, List.reverse_cons, Option.getD_some,
            List.append_assoc, List.singleton_append, List.countP_cons, Option.isNone_some,
            Bool.false_eq_true, if_false, List.length_cons, Nat.add_assoc, Nat.add_comm 1,
            Nat.add_zero]

end PoolWork

namespace Scanner

variable {scanner : Scanner} {pattern : Pattern} {regions : List Region}
  {blocks : List ReadBlock}

/-- At least one worker is wanted for at least one block. -/
theorem blocks_eq_nil_of_unmanned (threads : scanner.hardwareThreads ≠ 0)
    (unmanned : scanner.reader.workerCount blocks.length = 0) : blocks = [] := by
  have hardware : scanner.hardwareThreads.toNat ≠ 0 := fun none =>
    threads (UInt64.toNat_inj.mp none)
  unfold Reader.workerCount reader at unmanned
  dsimp only at unmanned
  apply List.eq_nil_of_length_eq_zero
  omega

theorem workerCount_lt (scanner : Scanner) (blocks : List ReadBlock) :
    scanner.reader.workerCount blocks.length < UInt64.size := by
  have bound := scanner.hardwareThreads.toNat_lt
  have least : scanner.reader.workerCount blocks.length ≤ scanner.hardwareThreads.toNat :=
    Nat.le_trans (Nat.min_le_right _ _) (Nat.min_le_right _ _)
  exact Nat.lt_of_le_of_lt least bound

theorem toNat_ofNat_workerCount (scanner : Scanner) (blocks : List ReadBlock) :
    (UInt64.ofNat (scanner.reader.workerCount blocks.length)).toNat =
      scanner.reader.workerCount blocks.length :=
  UInt64.toNat_ofNat_of_lt' (scanner.workerCount_lt blocks)

theorem ofNat_workerCount_ne_zero {scanner : Scanner} {blocks : List ReadBlock}
    (manned : scanner.reader.workerCount blocks.length ≠ 0) :
    UInt64.ofNat (scanner.reader.workerCount blocks.length) ≠ 0 := by
  intro none
  refine manned ?_
  rw [<- scanner.toNat_ofNat_workerCount blocks, none]
  rfl

/-- What a reader of sound blocks answers. -/
theorem readBlocks_eq
    (sound : (⟨scanner.reader, pattern, regions, blocks⟩ : PoolWork).Sound)
    (threads : scanner.hardwareThreads ≠ 0)
    (fits : forall block, block ∈ blocks -> block.length ≤ scanner.settings.memoryLimit)
    {arena : Arena}
    (made : Arena.make (UInt64.ofNat (scanner.reader.workerCount blocks.length))
      ((longestBlock? blocks).getD 0) = .ok arena) (trace : Trace) :
    ∃ reads sink, scanner.readBlocks pattern regions blocks trace =
      (.ok ((⟨scanner.reader, pattern, regions, blocks⟩ : PoolWork).outcome
        (scanner.reader.workerCount blocks.length)),
        { trace with reads := reads, diagnostics := sink }) := by
  unfold readBlocks Reader.run
  by_cases unmanned : scanner.reader.workerCount blocks.length = 0
  · have none := blocks_eq_nil_of_unmanned threads unmanned
    subst none
    exact ⟨trace.reads, trace.diagnostics, rfl⟩
  · rcases @PoolWork.handleBlocks_eq ⟨scanner.reader, pattern, regions, blocks⟩ sound _ unmanned
      blocks (fun _ member => member) scanner.budget rfl
      (fun block member => UInt64.le_iff_toNat_le.mp (fits block member)) {} rfl trace with
      ⟨later, sink, handled⟩
    refine ⟨trace.reads + blocks.length, sink, ?_⟩
    rw [if_neg unmanned, made]
    dsimp only at handled ⊢
    simp only [bind, StateT.bind, handled, pure, StateT.pure, ReadTally.outcome,
      List.append_nil, List.reverse_reverse, Nat.zero_add]
    rw [PoolWork.outcome, PoolWork.results, List.map_map]
    rfl

/-- What a pool makes of sound blocks is what a reader answers. -/
theorem poolRun_eq {work : PoolWork} {trace : Trace}
    {result : Except (Halt ScanError) ReadOutcome × Trace} (sound : work.Sound)
    (same : work.reader = scanner.reader) (threads : scanner.hardwareThreads ≠ 0)
    (fits : forall block, block ∈ work.blocks ->
      block.length ≤ scanner.settings.memoryLimit)
    {arena : Arena}
    (made : Arena.make (UInt64.ofNat (scanner.reader.workerCount work.blocks.length))
      ((longestBlock? work.blocks).getD 0) = .ok arena)
    (ran : scanner.PoolRun work trace result) :
    ∃ reads sink, result = (.ok (work.outcome (scanner.reader.workerCount work.blocks.length)),
      { trace with reads := reads, diagnostics := sink }) := by
  cases ran with
  | idle unmanned =>
      rw [same] at unmanned
      have none := blocks_eq_nil_of_unmanned threads unmanned
      refine ⟨trace.reads, trace.diagnostics, ?_⟩
      rw [PoolWork.outcome, PoolWork.results, unmanned, none]
      rfl
  | cramped cause manned refused =>
      rw [same] at refused
      unfold Pool.start at refused
      rw [made] at refused
      contradiction
  | ends first last manned started reached done =>
      rw [same] at manned started
      have some := ofNat_workerCount_ne_zero manned
      have unharmed := Pool.Faultless.faultedWorkers_eq_nil some sound started reached
      rcases Pool.accounted_of_isDone some fits sound.timeless started reached done unharmed with
        ⟨accounted, finished, nonempty, length⟩
      refine ⟨_, _, Prod.ext ?_ accounted.trace_eq⟩
      rw [accounted.answer_eq finished nonempty unharmed, length,
        scanner.toNat_ofNat_workerCount, PoolWork.outcome, PoolWork.results, List.map_map]
      rfl

/-- Both ways to read the blocks come to the same outcome. -/
theorem reads_eq {reads : ReadPhase} (way : scanner.ReadsBlocks reads)
    (sound : (⟨scanner.reader, pattern, regions, blocks⟩ : PoolWork).Sound)
    (threads : scanner.hardwareThreads ≠ 0)
    (fits : forall block, block ∈ blocks -> block.length ≤ scanner.settings.memoryLimit)
    {arena : Arena}
    (made : Arena.make (UInt64.ofNat (scanner.reader.workerCount blocks.length))
      ((longestBlock? blocks).getD 0) = .ok arena) (trace : Trace) :
    ∃ asked sink, reads pattern regions blocks trace =
      (.ok ((⟨scanner.reader, pattern, regions, blocks⟩ : PoolWork).outcome
        (scanner.reader.workerCount blocks.length)),
        { trace with reads := asked, diagnostics := sink }) := by
  rcases way with rfl | pooled
  · exact readBlocks_eq sound threads fits made trace
  · exact poolRun_eq sound rfl threads fits made (pooled pattern regions blocks trace)

end Scanner
end MemoryProbe
