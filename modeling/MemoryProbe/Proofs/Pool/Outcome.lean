import MemoryProbe.Proofs.Pool.Accounts
import MemoryProbe.Proofs.Pool.Ending
import MemoryProbe.Proofs.Pool.Progress
import MemoryProbe.Proofs.Pool.Wakeup

namespace MemoryProbe

/-!
What a pool comes to.  Whatever the schedule, a pool whose workers are done without
a fault has read each block once, and its answer is that of handling the blocks one
after the other.
-/

/-- Entries that are all right, and leave out only what was right before, set a list
right. -/
theorem foldl_set_eq {α : Type} {target initial : List α} {entries : List (Nat × α)}
    (long : initial.length = target.length)
    (right : forall entry, entry ∈ entries -> target[entry.1]? = some entry.2)
    (complete : forall index, initial[index]? = target[index]? ∨
      ∃ entry, entry ∈ entries ∧ entry.1 = index) :
    entries.foldl (fun results entry => results.set entry.1 entry.2) initial = target := by
  induction entries generalizing initial with
  | nil =>
      refine List.ext_getElem? fun index => ?_
      rcases complete index with same | ⟨entry, member, -⟩
      · exact same
      · exact absurd member List.not_mem_nil
  | cons entry rest ih =>
      have here := right entry List.mem_cons_self
      rw [List.foldl_cons]
      refine ih ((List.length_set ..).trans long)
        (fun other member => right other (List.mem_cons_of_mem _ member)) fun index => ?_
      by_cases same : entry.1 = index
      · left
        have inside := (List.getElem?_eq_some_iff.mp here).1
        rw [<- same, List.getElem?_set_self (long ▸ inside), here]
      · rw [List.getElem?_set_ne same]
        rcases complete index with old | ⟨other, member, place⟩
        · exact Or.inl old
        · rcases List.mem_cons.mp member with first | later
          · exact absurd (first ▸ place) same
          · exact Or.inr ⟨other, later, place⟩

/-- Counting the numbers of entries is counting the entries. -/
theorem countP_range {α : Type} (entries : List α) (holds : Option α -> Bool) :
    ((List.range entries.length).countP fun index => holds entries[index]?) =
      entries.countP fun entry => holds (some entry) := by
  have listed : ((List.range entries.length).map fun index => entries[index]?) =
      entries.map some := by
    refine List.ext_getElem? fun place => ?_
    rw [List.getElem?_map, List.getElem?_map]
    by_cases inside : place < entries.length
    · rw [List.getElem?_range inside, List.getElem?_eq_getElem inside, Option.map_some,
        Option.map_some, List.getElem?_eq_getElem inside]
    · rw [List.getElem?_eq_none (by rw [List.length_range]; omega),
        List.getElem?_eq_none (by omega), Option.map_none, Option.map_none]
  have counted := congrArg (List.countP holds) listed
  rw [List.countP_map, List.countP_map] at counted
  exact counted

namespace Pool

variable {work : PoolWork} {pool next : Pool} {begun : Trace} {ceiling : Word}

theorem foundCount_eq_count (entry : Nat × List Address) (pool : Pool) :
    pool.foundCount entry = (pool.workers.flatMap Worker.found).count entry := by
  rw [List.count_flatMap]
  rfl

/-- Every worker is done, and none met a fault. -/
theorem phase_eq_finished (done : pool.isDone = true) (unharmed : pool.faultedWorkers = [])
    {worker : Worker} (member : worker ∈ pool.workers) : worker.phase = .finished := by
  have ended := List.all_eq_true.mp done worker member
  cases phase : worker.phase with
  | finished => rfl
  | faulted =>
      rcases List.getElem?_of_mem member with ⟨id, found⟩
      have inside := (List.getElem?_eq_some_iff.mp found).1
      have listed : id ∈ pool.faultedWorkers := by
        unfold faultedWorkers
        rw [List.mem_filter, List.mem_range]
        refine ⟨inside, ?_⟩
        rw [found, Option.any_some, phase]
        rfl
      rw [unharmed] at listed
      exact absurd listed List.not_mem_nil
  | _ => simp [WorkerPhase.isDone, phase] at ended

theorem phaseTotal_eq_zero_of_finished
    (finished : forall worker, worker ∈ pool.workers -> worker.phase = .finished)
    {weigh : WorkerPhase -> Nat} (idle : weigh .finished = 0) : pool.phaseTotal weigh = 0 :=
  phaseTotal_eq_zero_iff.mpr fun worker member => (finished worker member) ▸ idle

namespace Accounted

theorem start {workers : Word} {budget : Budget}
    (started : Pool.start work workers budget begun = .ok pool) :
    Accounted work begun pool := by
  rcases exists_arena_of_start started with ⟨arena, -, rfl⟩
  have ready : forall worker, worker ∈ List.replicate workers.toNat ({} : Worker) ->
      worker = {} := fun worker member => List.eq_of_mem_replicate member
  have idle : forall weigh : WorkerPhase -> Nat, weigh .ready = 0 ->
      phaseTotal weigh
        { workers := List.replicate workers.toNat {}
          arena := arena
          budget := budget
          trace := begun } = 0 := by
    intro weigh none
    refine phaseTotal_eq_zero_iff.mpr fun worker member => ?_
    rw [ready worker member]
    exact none
  refine
    { truthful := fun worker member => ?_
      behind := fun worker member ended => ?_
      goesOn := rfl
      noCause := rfl
      handled := fun index member => absurd member List.not_mem_nil
      trace_eq := rfl
      taken_eq := fun index => ?_
      found_eq := fun entry => ?_
      failed_eq := ?_ }
  · rw [ready worker member]
    trivial
  · rw [ready worker member] at ended
    contradiction
  · rw [idle _ rfl, if_neg (fun both => absurd both.1 (Nat.not_lt_zero _))]
    rfl
  · rw [idle _ rfl, List.count_nil, ite_self, Nat.add_zero]
    unfold foundCount
    rw [List.map_replicate]
    simp
  · rw [idle _ rfl]
    rfl

/-- The accounts hold behind every schedule without a fault. -/
theorem follow {schedule : List Nat} (accounted : Accounted work begun pool)
    (watched : Watched ceiling pool) (timeless : work.reader.target.Timeless)
    (fits : forall block, block ∈ work.blocks -> block.length.toNat ≤ ceiling.toNat)
    (followed : pool.follow work schedule = some next) (calm : next.Calm) :
    Accounted work begun next := by
  refine (follow_induction
    (fun pool => Watched ceiling pool ∧ (pool.Calm -> Accounted work begun pool))
    ?_ ⟨watched, fun _ => accounted⟩ followed).2 calm
  rintro pool id next ⟨watched, keeps⟩ stepped
  refine ⟨watched.step stepped, fun calm => ?_⟩
  refine (keeps (calm_of_step stepped calm)).step timeless ?_ stepped calm
  rw [watched.ceiling_eq]
  exact fits

section Finished

variable (accounted : Accounted work begun pool)
  (finished : forall worker, worker ∈ pool.workers -> worker.phase = .finished)
  (manned : pool.workers ≠ [])

include accounted finished manned

/-- Each block was read once. -/
theorem readBlocks_perm : pool.readBlocks.Perm (List.range work.blocks.length) := by
  rcases List.exists_mem_of_ne_nil _ manned with ⟨worker, member⟩
  have behind := accounted.behind worker member (finished worker member)
  refine List.perm_iff_count.mpr fun index => ?_
  have taken := accounted.taken_eq index
  rw [phaseTotal_eq_zero_of_finished finished rfl, Nat.add_zero] at taken
  rw [taken, List.count_range]
  by_cases inside : index < work.blocks.length
  · rw [if_pos inside, if_pos ⟨by omega, inside⟩]
  · rw [if_neg inside, if_neg (fun both => inside both.2)]

/-- No block came to a fault. -/
theorem handled_ne_faulted {block : ReadBlock} (member : block ∈ work.blocks) :
    work.handled block ≠ .faulted := by
  rcases List.getElem?_of_mem member with ⟨index, found⟩
  have inside := (List.getElem?_eq_some_iff.mp found).1
  have read : index ∈ pool.readBlocks :=
    (accounted.readBlocks_perm finished manned).mem_iff.mpr (List.mem_range.mpr inside)
  rcases accounted.handled index read with ⟨handling, whole, comes⟩
  unfold PoolWork.handledAt at comes
  rw [found, Option.map_some, Option.some.injEq] at comes
  exact comes ▸ whole

/-- A block left no record exactly if nothing was found in it. -/
theorem mem_found_iff {entry : Nat × List Address} :
    entry ∈ pool.workers.flatMap Worker.found <-> work.Records entry := by
  have books := accounted.found_eq entry
  rw [phaseTotal_eq_zero_of_finished finished rfl, Nat.add_zero, foundCount_eq_count] at books
  rw [<- List.count_pos_iff, books]
  constructor
  · intro positive
    by_cases records : work.Records entry
    · exact records
    · rw [if_neg records] at positive
      contradiction
  · intro records
    rcases Option.map_eq_some_iff.mp records.2 with ⟨block, found, -⟩
    have inside := (List.getElem?_eq_some_iff.mp found).1
    rw [if_pos records, List.count_pos_iff,
      (accounted.readBlocks_perm finished manned).mem_iff, List.mem_range]
    exact inside

theorem hits_eq :
    pool.hits work =
      work.blocks.map fun block => ((work.handled block).hits?).getD [] := by
  unfold hits
  refine foldl_set_eq (by simp) (fun entry member => ?_) fun index => ?_
  · have records := (accounted.mem_found_iff finished manned).mp member
    rcases Option.map_eq_some_iff.mp records.2 with ⟨block, found, comes⟩
    rw [List.getElem?_map, found, Option.map_some, comes]
    rfl
  · by_cases inside : index < work.blocks.length
    · have here := List.getElem?_eq_getElem inside
      cases comes : work.handled work.blocks[index] with
      | matched hits =>
          by_cases empty : hits = []
          · left
            rw [List.getElem?_map, here, Option.map_some, comes, empty,
              List.getElem?_replicate, if_pos inside]
            rfl
          · refine Or.inr ⟨(index, hits), ?_, rfl⟩
            refine (accounted.mem_found_iff finished manned).mpr ⟨empty, ?_⟩
            rw [PoolWork.handledAt, here, Option.map_some, comes]
      | _ =>
          left
          rw [List.getElem?_map, here, Option.map_some, comes, List.getElem?_replicate,
            if_pos inside]
          rfl
    · left
      rw [List.getElem?_eq_none (by rw [List.length_replicate]; omega),
        List.getElem?_eq_none (by rw [List.length_map]; omega)]

theorem failedBlocks_eq :
    pool.failedBlocks =
      (work.blocks.map fun block => (work.handled block).hits?).countP Option.isNone := by
  have books := accounted.failed_eq
  rw [phaseTotal_eq_zero_of_finished finished rfl, Nat.add_zero,
    (accounted.readBlocks_perm finished manned).countP_eq] at books
  have counted := countP_range work.blocks fun block? =>
    decide (block?.map work.handled = some .skipped)
  rw [books, List.countP_map]
  refine counted.trans (List.countP_congr fun block member => ?_)
  have whole := accounted.handled_ne_faulted finished manned member
  rw [Option.map_some, Function.comp_apply]
  cases comes : work.handled block with
  | faulted => exact absurd comes whole
  | _ => simp [Handling.hits?]

/-- What the workers answer once they are done. -/
theorem answer_eq (unharmed : pool.faultedWorkers = []) :
    pool.answer work = .ok
      ⟨work.blocks.map fun block => ((work.handled block).hits?).getD [],
        pool.workers.length,
        (work.blocks.map fun block => (work.handled block).hits?).countP Option.isNone⟩ := by
  rw [answer_eq_of_faults]
  rw [unharmed, accounted.noCause]
  dsimp only
  rw [accounted.hits_eq finished manned, accounted.failedBlocks_eq finished manned]

end Finished

end Accounted

/-- The potential of a pool that begins. -/
theorem potential_start {workers : Word} {budget : Budget}
    (started : Pool.start work workers budget begun = .ok pool) :
    pool.potential work =
      (workers.toNat + 9) * work.blocks.length + 2 * workers.toNat := by
  rcases exists_arena_of_start started with ⟨arena, -, rfl⟩
  unfold potential phaseTotal
  rw [List.map_replicate, List.sum_replicate_nat, List.length_replicate, Nat.sub_zero]
  simp only [rank]
  omega

/-- A pool whose workers are done without a fault has its accounts settled. -/
theorem accounted_of_isDone {workers : Word} {first last : Pool} (manned : workers ≠ 0)
    (fits : forall block, block ∈ work.blocks -> block.length ≤ ceiling)
    (timeless : work.reader.target.Timeless)
    (started : Pool.start work workers { ceiling := ceiling } begun = .ok first)
    (reached : first.Leads work last) (done : last.isDone = true)
    (unharmed : last.faultedWorkers = []) :
    Accounted work begun last ∧
      (forall worker, worker ∈ last.workers -> worker.phase = .finished) ∧
      last.workers ≠ [] ∧ last.workers.length = workers.toNat := by
  rcases reached with ⟨schedule, followed⟩
  have finished : forall worker, worker ∈ last.workers -> worker.phase = .finished :=
    fun worker => phase_eq_finished done unharmed
  have calm : last.Calm := phaseTotal_eq_zero_of_finished finished rfl
  have number : last.workers.length = workers.toNat := by
    rcases exists_arena_of_start started with ⟨arena, -, rfl⟩
    rw [follow_length followed, List.length_replicate]
  refine ⟨(Accounted.start started).follow (Watched.start rfl started) timeless
    (fun block member => UInt64.le_iff_toNat_le.mp (fits block member)) followed calm,
    finished, ?_, number⟩
  intro none
  rw [none, List.length_nil] at number
  exact manned (UInt64.toNat_inj.mp number.symm)

/-- Whatever the order of the steps, a pool reads each block once and comes to what
handling the blocks one after the other comes to.  Every schedule ends.  Once the
workers are done, and none met a fault, the matches of a block are those in its own
bytes, a block that was not read in full has none and is counted, and no byte of the
budget is in use. -/
theorem pool_reads_blockwise {work : PoolWork} {workers ceiling : Word} {trace : Trace}
    {first : Pool} (manned : workers ≠ 0)
    (fits : forall block, block ∈ work.blocks -> block.length ≤ ceiling)
    (timeless : work.reader.target.Timeless)
    (started : Pool.start work workers { ceiling := ceiling } trace = .ok first) :
    (forall (schedule : List Nat) (last : Pool),
      first.follow work schedule = some last ->
      schedule.length ≤ (workers.toNat + 9) * work.blocks.length + 2 * workers.toNat ∧
        (last.isDone = true ∨ ∃ id next, last.step work id = some next)) ∧
    forall last : Pool, first.Leads work last -> last.isDone = true ->
      last.faultedWorkers = [] ->
      ∃ results : List (Option (List Address)),
        (forall fresh : Trace,
          (((work.blocks.mapM (work.reader.silent.handleBlock work.pattern work.regions)) :
            Run ScanError (List (Option (List Address)))) fresh).1 = .ok results) ∧
        last.answer work = .ok
          ⟨results.map fun result => result.getD [], workers.toNat,
            results.countP Option.isNone⟩ ∧
        results.length = work.blocks.length ∧
        (forall (index : Nat) (block : ReadBlock) (result : Option (List Address)),
          work.blocks[index]? = some block -> results[index]? = some result ->
          work.reader.Finds work.pattern block result) ∧
        last.readBlocks.Perm (List.range work.blocks.length) ∧
        last.trace.reads = trace.reads + work.blocks.length ∧
        last.budget.used = 0 := by
  have watched := Watched.start rfl started
  refine ⟨fun schedule last followed => ⟨?_, (watched.follow followed).isDone_or_step⟩, ?_⟩
  · have bound := length_add_potential_le followed
    rw [potential_start started] at bound
    omega
  · intro last reached done unharmed
    rcases accounted_of_isDone manned fits timeless started reached done unharmed with
      ⟨accounted, finished, some, number⟩
    have once := accounted.readBlocks_perm finished some
    have calmBlock := fun block (member : block ∈ work.blocks) =>
      accounted.handled_ne_faulted finished some member
    refine ⟨work.blocks.map fun block => (work.handled block).hits?,
      PoolWork.mapM_handleBlock_silent timeless calmBlock, ?_, List.length_map _, ?_, once, ?_, ?_⟩
    · rw [accounted.answer_eq finished some unharmed, number, List.map_map]
      rfl
    · intro index block result found listed
      rw [List.getElem?_map, found, Option.map_some, Option.some.injEq] at listed
      exact listed ▸ PoolWork.finds_of_handled (calmBlock block (List.mem_of_getElem? found))
    · have reads := congrArg Trace.reads accounted.trace_eq
      rw [reads, once.length_eq, List.length_range]
    · rcases reached with ⟨schedule, followed⟩
      have used := (watched.follow followed).used_eq
      rw [phaseTotal_eq_zero_of_finished finished rfl] at used
      exact UInt64.toNat_inj.mp used

/-- Two blocks of two bytes each, of which only the first is there in full. -/
def brokenWork : PoolWork where
  reader :=
    { target :=
        { pid := 1
          query := fun _ => .ok none
          read := fun _ address _ => .ok (if address.isNull then [7, 7] else [7])
          modulePath := fun _ => none
          imagePath := none }
      tellsFailures := false
      maxThreads := 2
      hardwareThreads := 2 }
  pattern := ⟨[7], by decide⟩
  regions := [Region.gap ⟨0⟩ 4]
  blocks := [⟨⟨0⟩, 2, 0⟩, ⟨⟨2⟩, 2, 0⟩]

/-- The second worker turns up late, and the first one uses its buffer for both
blocks: the byte that the first block left behind is not matched in the second. -/
theorem pool_reads_blockwise_of_short :
    ∃ first last, Pool.start brokenWork 2 { ceiling := 2 } {} = .ok first ∧
      first.follow brokenWork
        [0, 0, 0, 0, 0, 0, 0, 0, 0, 0, 0, 1, 1, 0, 0, 0, 0, 0, 0] = some last ∧
      last.answer brokenWork = .ok ⟨[[⟨0⟩, ⟨1⟩], []], 2, 1⟩ ∧
      last.readBlocks.Perm [0, 1] := by
  have reads := @pool_reads_blockwise brokenWork 2 2 {} _ (by decide) (by decide)
    (fun _ _ _ _ => rfl) rfl
  rcases reads.2 _ ⟨[0, 0, 0, 0, 0, 0, 0, 0, 0, 0, 0, 1, 1, 0, 0, 0, 0, 0, 0], rfl⟩ rfl rfl with
    ⟨results, -, -, -, -, once, -, -⟩
  exact ⟨_, _, rfl, rfl, rfl, once⟩

end Pool
end MemoryProbe
