import MemoryProbe.Proofs.Pool.Blockwise

namespace MemoryProbe

/-!
The accounts of a pool.  Each block whose number was taken is waited for by one
worker or was read once; what came of a block that was read is on its way with one
worker or recorded once.  The accounts hold as long as no worker meets a fault.
-/

namespace WorkerPhase

/-- Whether a worker met a fault. -/
def trouble : WorkerPhase -> Nat
  | .releasing _ .faulted => 1
  | .waking _ .faulted => 1
  | .recording _ .faulted => 1
  | .faulted => 1
  | _ => 0

/-- Whether the block with a number is yet to be read by a worker. -/
def awaits (index : Nat) : WorkerPhase -> Nat
  | .reserving taken => if taken.index = index then 1 else 0
  | .asleep taken => if taken.index = index then 1 else 0
  | .reading taken => if taken.index = index then 1 else 0
  | _ => 0

/-- Whether what came of a block makes a record; no matches leave none. -/
def makes (entry : Nat × List Address) (index : Nat) : Handling -> Nat
  | .matched hits => if hits ≠ [] ∧ (index, hits) = entry then 1 else 0
  | _ => 0

/-- Whether a worker is on its way to make a record. -/
def owes (entry : Nat × List Address) : WorkerPhase -> Nat
  | .releasing taken handling => makes entry taken.index handling
  | .waking taken handling => makes entry taken.index handling
  | .recording taken handling => makes entry taken.index handling
  | _ => 0

/-- Whether a worker makes a record in its next step. -/
def adds (entry : Nat × List Address) : WorkerPhase -> Nat
  | .recording taken handling => makes entry taken.index handling
  | _ => 0

/-- Whether a worker is on its way to count a skipped block. -/
def skips : WorkerPhase -> Nat
  | .telling _ _ _ => 1
  | .releasing _ .skipped => 1
  | .waking _ .skipped => 1
  | .recording _ .skipped => 1
  | _ => 0

/-- Whether a worker was refused the bytes of a block and has yet to leave the cause. -/
def refuses : WorkerPhase -> Nat
  | .stopping _ => 1
  | .explaining _ => 1
  | _ => 0

end WorkerPhase

namespace PoolWork

/-- What a phase says about the block of its worker is so. -/
def Truthful (work : PoolWork) : WorkerPhase -> Prop
  | .reserving taken => work.blocks[taken.index]? = some taken.block
  | .asleep taken => work.blocks[taken.index]? = some taken.block
  | .reading taken => work.blocks[taken.index]? = some taken.block
  | .telling taken _ _ => work.handledAt taken.index = some .skipped
  | .releasing taken handling => work.handledAt taken.index = some handling
  | .waking taken handling => work.handledAt taken.index = some handling
  | .recording taken handling => work.handledAt taken.index = some handling
  | .stopping _ => False
  | .explaining _ => False
  | _ => True

/-- Whether a record says what came of its block. -/
def Records (work : PoolWork) (entry : Nat × List Address) : Prop :=
  entry.2 ≠ [] ∧ work.handledAt entry.1 = some (.matched entry.2)

instance (work : PoolWork) (entry : Nat × List Address) : Decidable (work.Records entry) :=
  inferInstanceAs (Decidable (_ ∧ _))

end PoolWork

namespace Pool

/-- No worker has met a fault. -/
def Calm (pool : Pool) : Prop :=
  pool.phaseTotal WorkerPhase.trouble = 0

/-- The accounts of a pool that began with a trace. -/
structure Accounted (work : PoolWork) (begun : Trace) (pool : Pool) : Prop where
  truthful : forall worker, worker ∈ pool.workers -> work.Truthful worker.phase
  /-- A worker ends only behind the last block. -/
  behind : forall worker, worker ∈ pool.workers -> worker.phase = .finished ->
    work.blocks.length ≤ pool.cursor
  goesOn : pool.givesUp = false
  noCause : pool.cause = none
  /-- What was read came to no fault. -/
  handled : forall index, index ∈ pool.readBlocks ->
    ∃ handling, handling ≠ .faulted ∧ work.handledAt index = some handling
  trace_eq : pool.trace =
    { begun with
      reads := begun.reads + pool.readBlocks.length
      diagnostics := pool.trace.diagnostics }
  taken_eq : forall index,
    pool.readBlocks.count index + pool.phaseTotal (WorkerPhase.awaits index) =
      if index < pool.cursor ∧ index < work.blocks.length then 1 else 0
  found_eq : forall entry,
    pool.foundCount entry + pool.phaseTotal (WorkerPhase.owes entry) =
      if work.Records entry then pool.readBlocks.count entry.1 else 0
  failed_eq : pool.failedBlocks + pool.phaseTotal WorkerPhase.skips =
    pool.readBlocks.countP fun index => work.handledAt index = some .skipped

variable {work : PoolWork} {pool next : Pool} {id : Nat}

theorem phaseTotal_eq_zero_iff {weigh : WorkerPhase -> Nat} :
    pool.phaseTotal weigh = 0 <->
      forall worker, worker ∈ pool.workers -> weigh worker.phase = 0 := by
  unfold phaseTotal
  constructor
  · intro empty worker member
    have part := le_sum_of_mem (fun worker => weigh worker.phase) member
    omega
  · intro none
    apply Nat.eq_zero_of_not_pos
    intro positive
    rcases exists_pos_of_sum_pos positive with ⟨worker, member, counts⟩
    have empty := none worker member
    omega

/-- Trouble stays. -/
theorem Turn.trouble_le {before phase : WorkerPhase} {after : Pool}
    (turn : Turn work pool id before after phase) : before.trouble ≤ phase.trouble := by
  cases turn with
  | wake taken handling whole =>
      cases handling with
      | faulted => exact absurd rfl whole
      | _ => exact Nat.le_refl _
  | release taken handling => cases handling <;> exact Nat.le_refl _
  | _ => first | exact Nat.le_refl _ | exact Nat.zero_le _

/-- A pool is calm only if it was calm before. -/
theorem calm_of_step (stepped : pool.step work id = some next) (calm : next.Calm) :
    pool.Calm := by
  rcases turn_of_step stepped with ⟨worker, before, after, phase, found, leaves, turn, rfl⟩
  have exchanged := turn.phaseTotal_next found leaves WorkerPhase.trouble fun _ => rfl
  have stays := turn.trouble_le
  unfold Calm at calm ⊢
  omega

/-- The worker that turned in a calm pool is itself calm. -/
theorem Turn.trouble_eq_zero {worker : Worker} {before phase : WorkerPhase} {after : Pool}
    (turn : Turn work pool id before after phase)
    (found : pool.workers[id]? = some worker) (calm : (after.enter id phase).Calm) :
    phase.trouble = 0 := by
  have part := turn.weight_le found WorkerPhase.trouble
  unfold Calm at calm
  omega

/-! ## What becomes of a number -/

/-- A number is waited for or read only once it was taken. -/
theorem Turn.taken_le {before phase : WorkerPhase} {after : Pool}
    (turn : Turn work pool id before after phase) (index : Nat) :
    after.readBlocks.count index + phase.awaits index +
        (if index < pool.cursor ∧ index < work.blocks.length then 1 else 0) ≤
      pool.readBlocks.count index + before.awaits index +
        (if index < after.cursor ∧ index < work.blocks.length then 1 else 0) := by
  cases turn with
  | take block there =>
      have inside := (List.getElem?_eq_some_iff.mp there).1
      simp only [WorkerPhase.awaits]
      split <;> split <;> split <;> omega
  | runOut beyond =>
      simp only [WorkerPhase.awaits]
      split <;> split <;> omega
  | read taken region answer phase filled there asked ends =>
      have gone : phase.awaits index = 0 := by
        cases ends <;> rfl
      rw [gone, List.count_append, List.count_singleton]
      simp only [WorkerPhase.awaits, beq_iff_eq]
      omega
  | refuse taken wide => exact Nat.add_le_add_right (Nat.le_add_right _ _) _
  | overflow taken beyond => exact Nat.add_le_add_right (Nat.le_add_right _ _) _
  | miss taken missing => exact Nat.add_le_add_right (Nat.le_add_right _ _) _
  | _ => exact Nat.le_refl _

/-- A number that was taken is waited for until it is read, refused or lost to a fault. -/
theorem Turn.taken_ge {before phase : WorkerPhase} {after : Pool}
    (turn : Turn work pool id before after phase)
    (silent : forall cause, before ≠ .explaining cause) (index : Nat) :
    pool.readBlocks.count index + before.awaits index + before.trouble + before.refuses +
        (if index < after.cursor ∧ index < work.blocks.length then 1 else 0) ≤
      after.readBlocks.count index + phase.awaits index + phase.trouble + phase.refuses +
        (if index < pool.cursor ∧ index < work.blocks.length then 1 else 0) := by
  have stays := turn.trouble_le
  have one : forall taken : TakenBlock, (if taken.index = index then 1 else 0) ≤ 1 := by
    intro taken
    split <;> omega
  cases turn with
  | take block there =>
      have inside := (List.getElem?_eq_some_iff.mp there).1
      simp only [WorkerPhase.awaits, WorkerPhase.trouble, WorkerPhase.refuses]
      split <;> split <;> split <;> omega
  | runOut beyond =>
      have past := List.getElem?_eq_none_iff.mp beyond
      simp only [WorkerPhase.awaits, WorkerPhase.trouble, WorkerPhase.refuses]
      split <;> split <;> omega
  | read taken region answer phase filled there asked ends =>
      have gone : phase.awaits index = 0 := by
        cases ends <;> rfl
      rw [gone, List.count_append, List.count_singleton]
      simp only [WorkerPhase.awaits, WorkerPhase.refuses, beq_iff_eq]
      omega
  | refuse taken wide =>
      have few := one taken
      simp only [WorkerPhase.awaits, WorkerPhase.trouble, WorkerPhase.refuses]
      omega
  | overflow taken beyond =>
      have few := one taken
      simp only [WorkerPhase.awaits, WorkerPhase.trouble, WorkerPhase.refuses]
      omega
  | miss taken missing =>
      have few := one taken
      simp only [WorkerPhase.awaits, WorkerPhase.trouble, WorkerPhase.refuses]
      omega
  | explain cause => exact absurd rfl (silent cause)
  | _ =>
      refine Nat.add_le_add_right (Nat.add_le_add_right ?_ _) _
      exact Nat.add_le_add_left stays _

/-! ## What is recorded -/

theorem foundCount_enter (entry : Nat × List Address) (pool : Pool) (id : Nat)
    (phase : WorkerPhase) : (pool.enter id phase).foundCount entry = pool.foundCount entry := by
  unfold foundCount enter
  refine congrArg List.sum (List.ext_getElem? fun place => ?_)
  rw [List.getElem?_map, List.getElem?_map, List.getElem?_modify]
  cases pool.workers[place]? with
  | none => rfl
  | some worker =>
      simp only [Option.map_eq_map, Option.map_some]
      split <;> rfl

theorem foundCount_awaken (entry : Nat × List Address) (pool : Pool) :
    pool.awaken.foundCount entry = pool.foundCount entry := by
  unfold foundCount awaken
  rw [List.map_map]
  rfl

theorem foundCount_keep {worker : Worker} (found : pool.workers[id]? = some worker)
    (taken : TakenBlock) (hits : List Address) (entry : Nat × List Address) :
    (pool.keep id taken hits).foundCount entry =
      pool.foundCount entry + WorkerPhase.makes entry taken.index (.matched hits) := by
  have exchanged := sum_map_set (fun worker => worker.found.count entry)
    (withHits worker taken hits) found
  have grown : (withHits worker taken hits).found.count entry =
      worker.found.count entry + WorkerPhase.makes entry taken.index (.matched hits) := by
    unfold withHits WorkerPhase.makes
    cases hits with
    | nil => simp
    | cons hit hits =>
        simp only [List.isEmpty_cons, Bool.false_eq_true, if_false, List.count_append,
          List.count_singleton, beq_iff_eq, ne_eq, reduceCtorEq, not_false_eq_true, true_and]
  unfold foundCount
  rw [keep_workers found]
  omega

/-- The records of a pool grow by what its worker records. -/
theorem Turn.foundCount_next {worker : Worker} {before phase : WorkerPhase} {after : Pool}
    (turn : Turn work pool id before after phase)
    (found : pool.workers[id]? = some worker) (entry : Nat × List Address) :
    (after.enter id phase).foundCount entry = pool.foundCount entry + before.adds entry := by
  rw [foundCount_enter]
  cases turn with
  | wake taken handling whole => exact foundCount_awaken entry pool
  | wakeFaulted taken => exact foundCount_awaken entry pool
  | recordHits taken hits => exact foundCount_keep found taken hits entry
  | _ => rfl

namespace Accounted

variable {begun : Trace}

/-- What a worker says about a block that it has just read. -/
theorem exists_handling {taken : TakenBlock} {region : Region}
    {answer : Except MemoryError (List UInt8)} {phase : WorkerPhase} {filled : Arena}
    (timeless : work.reader.target.Timeless)
    (held : work.blocks[taken.index]? = some taken.block)
    (there : work.regions[taken.block.regionIndex]? = some region)
    (asked : work.reader.target.read pool.trace.reads taken.block.start
      taken.block.length.toNat = answer)
    (ends : Settles work pool.arena id taken region answer (phase, filled))
    (calm : phase.trouble = 0) :
    ∃ handling, work.handledAt taken.index = some handling ∧ handling ≠ .faulted ∧
      ((handling = .skipped ∧ ∃ failure, phase = .telling taken region failure) ∨
        phase = .releasing taken handling) := by
  have comes : work.handledAt taken.index = some (work.handledAfter taken.block answer) := by
    unfold PoolWork.handledAt
    rw [held, Option.map_some, PoolWork.handled, there, <- asked, timeless pool.trace.reads 0]
  refine ⟨_, comes, ?_⟩
  rcases PoolWork.phase_of_settles ends with ⟨failure, told, skipped⟩ | fault | releases
  · rw [skipped]
    exact ⟨by simp, Or.inl ⟨rfl, failure, told⟩⟩
  · rw [fault] at calm
    contradiction
  · refine ⟨fun fault => ?_, Or.inr releases⟩
    rw [releases, fault] at calm
    contradiction

section Step

variable {worker : Worker} {before phase : WorkerPhase} {after : Pool}

/-- A worker that told the truth tells the truth in its next phase. -/
theorem truthful_phase (accounted : Accounted work begun pool)
    (timeless : work.reader.target.Timeless)
    (fits : forall block, block ∈ work.blocks ->
      block.length.toNat ≤ pool.budget.ceiling.toNat)
    (turn : Turn work pool id before after phase)
    (found : pool.workers[id]? = some worker) (leaves : worker.phase = before)
    (calm : phase.trouble = 0) : work.Truthful phase := by
  have earlier : work.Truthful before :=
    leaves ▸ accounted.truthful worker (List.mem_of_getElem? found)
  cases turn with
  | take block there => exact there
  | refuse taken wide =>
      have held := fits taken.block (List.mem_of_getElem? earlier)
      omega
  | sleep taken narrow full => exact earlier
  | reserve taken used total room => exact earlier
  | miss taken missing => exact absurd calm Nat.one_ne_zero
  | read taken region answer phase filled there asked ends =>
      rcases exists_handling timeless earlier there asked ends calm with
        ⟨handling, comes, -, ⟨rfl, failure, rfl⟩ | rfl⟩
      · exact comes
      · exact comes
  | tell taken region failure trace told => exact earlier
  | mistell taken region failure stop trace told => exact absurd calm Nat.one_ne_zero
  | release taken handling => exact earlier
  | wake taken handling whole => exact earlier
  | stop cause => exact earlier
  | _ => trivial

theorem truthful_awaken {phase : WorkerPhase} (truthful : work.Truthful phase) :
    work.Truthful phase.awaken := by
  cases phase <;> exact truthful

theorem cursor_le (turn : Turn work pool id before after phase) :
    pool.cursor ≤ after.cursor := by
  cases turn with
  | take block there => exact Nat.le_succ _
  | runOut beyond => exact Nat.le_succ _
  | _ => exact Nat.le_refl _

/-- Who is done has run out of blocks. -/
theorem behind_next (accounted : Accounted work begun pool)
    (turn : Turn work pool id before after phase)
    (found : pool.workers[id]? = some worker) (leaves : worker.phase = before) :
    forall other, other ∈ (after.enter id phase).workers -> other.phase = .finished ->
      work.blocks.length ≤ after.cursor := by
  intro other member done
  have grows := cursor_le turn
  rcases turn.finished_next found member done with ended | ⟨old, earlier, ended⟩
  · subst ended
    cases turn with
    | quit given =>
        rw [accounted.goesOn] at given
        contradiction
    | runOut beyond =>
        have past := List.getElem?_eq_none_iff.mp beyond
        exact Nat.le_succ_of_le past
    | read taken region answer phase filled there asked ends => cases ends
    | explain cause =>
        have earlier := accounted.truthful worker (List.mem_of_getElem? found)
        rw [leaves] at earlier
        exact earlier.elim
  · have past := accounted.behind old earlier ended
    omega

theorem goesOn_next (accounted : Accounted work begun pool)
    (turn : Turn work pool id before after phase)
    (found : pool.workers[id]? = some worker) (leaves : worker.phase = before) :
    after.givesUp = false ∧ after.cause = none := by
  have earlier := accounted.truthful worker (List.mem_of_getElem? found)
  rw [leaves] at earlier
  cases turn with
  | stop cause => exact earlier.elim
  | explain cause => exact earlier.elim
  | _ => exact ⟨accounted.goesOn, accounted.noCause⟩

theorem trace_next (accounted : Accounted work begun pool)
    (turn : Turn work pool id before after phase) :
    after.trace = { begun with
      reads := begun.reads + after.readBlocks.length
      diagnostics := after.trace.diagnostics } := by
  have earlier := accounted.trace_eq
  cases turn with
  | read taken region answer phase filled there asked ends =>
      rw [List.length_append, List.length_singleton]
      rw [earlier]
      rfl
  | tell taken region failure trace told =>
      have later := Reader.skip_trace told
      rw [earlier] at later
      exact later
  | mistell taken region failure stop trace told =>
      have later := Reader.skip_trace told
      rw [earlier] at later
      exact later
  | _ => exact earlier

theorem handled_next (accounted : Accounted work begun pool)
    (timeless : work.reader.target.Timeless)
    (turn : Turn work pool id before after phase)
    (found : pool.workers[id]? = some worker) (leaves : worker.phase = before)
    (calm : phase.trouble = 0) :
    forall index, index ∈ after.readBlocks ->
      ∃ handling, handling ≠ .faulted ∧ work.handledAt index = some handling := by
  have earlier := accounted.truthful worker (List.mem_of_getElem? found)
  rw [leaves] at earlier
  cases turn with
  | read taken region answer phase filled there asked ends =>
      intro index member
      rcases List.mem_append.mp member with old | new
      · exact accounted.handled index old
      · rw [List.mem_singleton.mp new]
        rcases exists_handling timeless earlier there asked ends calm with
          ⟨handling, comes, whole, -⟩
        exact ⟨handling, whole, comes⟩
  | _ => exact accounted.handled

/-- Where nobody exceeds the budget, nobody is refused. -/
theorem refuses_eq_zero_of_truthful {phase : WorkerPhase} (truthful : work.Truthful phase) :
    phase.refuses = 0 := by
  cases phase with
  | stopping cause => exact truthful.elim
  | explaining cause => exact truthful.elim
  | _ => rfl

/-- A number that is taken is waited for, until it is read. -/
theorem taken_balance (turn : Turn work pool id before after phase)
    (earlier : work.Truthful before) (entered : work.Truthful phase)
    (calm : phase.trouble = 0) (index : Nat) :
    after.readBlocks.count index + phase.awaits index +
        (if index < pool.cursor ∧ index < work.blocks.length then 1 else 0) =
      pool.readBlocks.count index + before.awaits index +
        (if index < after.cursor ∧ index < work.blocks.length then 1 else 0) := by
  have silent : forall cause, before ≠ .explaining cause := by
    rintro cause rfl
    exact earlier
  have few := turn.taken_le index
  have many := turn.taken_ge silent index
  rw [refuses_eq_zero_of_truthful entered, calm] at many
  omega

/-- A block that was read is one more reason for the record of what came of it. -/
theorem records_count {index : Nat} {handling : Handling}
    (comes : work.handledAt index = some handling) (earlier : List Nat)
    (entry : Nat × List Address) :
    (if work.Records entry then (earlier ++ [index]).count entry.1 else 0) =
      (if work.Records entry then earlier.count entry.1 else 0) +
        WorkerPhase.makes entry index handling := by
  rcases entry with ⟨place, found⟩
  rw [List.count_append, List.count_singleton]
  by_cases records : work.Records (place, found)
  · rw [if_pos records, if_pos records]
    rcases records with ⟨some, right⟩
    by_cases same : index = place
    · subst place
      rw [comes, Option.some.injEq] at right
      subst right
      simp [WorkerPhase.makes, some]
    · cases handling <;> simp [WorkerPhase.makes, same]
  · rw [if_neg records, if_neg records]
    cases handling with
    | matched hits =>
        have none : ¬ (hits ≠ [] ∧ (index, hits) = (place, found)) := by
          rintro ⟨some, same⟩
          cases same
          exact records ⟨some, comes⟩
        rw [WorkerPhase.makes, if_neg none]
    | _ => rfl

/-- Matches of a block that was read are on their way, until they are recorded. -/
theorem found_balance (timeless : work.reader.target.Timeless)
    (turn : Turn work pool id before after phase) (earlier : work.Truthful before)
    (calm : phase.trouble = 0) (entry : Nat × List Address) :
    phase.owes entry + (if work.Records entry then pool.readBlocks.count entry.1 else 0) +
        before.adds entry =
      before.owes entry + (if work.Records entry then after.readBlocks.count entry.1 else 0) := by
  cases turn with
  | read taken region answer phase filled there asked ends =>
      rcases exists_handling timeless earlier there asked ends calm with
        ⟨handling, comes, whole, ⟨rfl, failure, rfl⟩ | rfl⟩
      · have grown := records_count comes pool.readBlocks entry
        simp only [WorkerPhase.owes, WorkerPhase.adds, WorkerPhase.makes] at grown ⊢
        omega
      · have grown := records_count comes pool.readBlocks entry
        simp only [WorkerPhase.owes, WorkerPhase.adds]
        omega
  | recordHits taken hits =>
      simp only [WorkerPhase.owes, WorkerPhase.adds]
      omega
  | _ => rfl

/-- A skipped block is on its way to be counted, until it is. -/
theorem failed_balance (timeless : work.reader.target.Timeless)
    (turn : Turn work pool id before after phase) (earlier : work.Truthful before)
    (calm : phase.trouble = 0) :
    after.failedBlocks + phase.skips +
        (pool.readBlocks.countP fun index => work.handledAt index = some .skipped) =
      pool.failedBlocks + before.skips +
        (after.readBlocks.countP fun index => work.handledAt index = some .skipped) := by
  cases turn with
  | read taken region answer phase filled there asked ends =>
      rw [List.countP_append, List.countP_singleton]
      rcases exists_handling timeless earlier there asked ends calm with
        ⟨handling, comes, whole, ⟨rfl, failure, rfl⟩ | rfl⟩
      · simp only [comes, WorkerPhase.skips, decide_true, if_true]
        omega
      · cases handling with
        | faulted => exact absurd rfl whole
        | matched hits => simp [comes, WorkerPhase.skips]
        | skipped =>
            simp only [comes, WorkerPhase.skips, decide_true, if_true]
            exact Nat.add_right_comm _ _ _
  | mistell taken region failure stop trace told => exact absurd calm Nat.one_ne_zero
  | release taken handling => cases handling <;> rfl
  | wake taken handling whole => cases handling <;> rfl
  | _ => rfl

/-- A step without a fault keeps the accounts. -/
theorem step (accounted : Accounted work begun pool)
    (timeless : work.reader.target.Timeless)
    (fits : forall block, block ∈ work.blocks ->
      block.length.toNat ≤ pool.budget.ceiling.toNat)
    (stepped : pool.step work id = some next) (calm : next.Calm) :
    Accounted work begun next := by
  rcases turn_of_step stepped with ⟨worker, before, after, phase, found, leaves, turn, rfl⟩
  have whole := turn.trouble_eq_zero found calm
  have earlier : work.Truthful before :=
    leaves ▸ accounted.truthful worker (List.mem_of_getElem? found)
  have entered := accounted.truthful_phase timeless fits turn found leaves whole
  have keepsOn := accounted.goesOn_next turn found leaves
  have behind_after := accounted.behind_next turn found leaves
  have handled_after := accounted.handled_next timeless turn found leaves whole
  have trace_after := accounted.trace_next turn
  refine
    { truthful := turn.forall_next found work.Truthful (fun _ => truthful_awaken)
        accounted.truthful entered
      behind := behind_after
      goesOn := keepsOn.1
      noCause := keepsOn.2
      handled := handled_after
      trace_eq := trace_after
      taken_eq := fun index => ?_
      found_eq := fun entry => ?_
      failed_eq := ?_ }
  · have exchanged := turn.phaseTotal_next found leaves (WorkerPhase.awaits index) fun _ => rfl
    have books := accounted.taken_eq index
    have balance := taken_balance turn earlier entered whole index
    change after.readBlocks.count index + _ =
      if index < after.cursor ∧ index < work.blocks.length then 1 else 0
    omega
  · have exchanged := turn.phaseTotal_next found leaves (WorkerPhase.owes entry) fun _ => rfl
    have books := accounted.found_eq entry
    have balance := found_balance timeless turn earlier whole entry
    have records := turn.foundCount_next found entry
    change _ = if work.Records entry then after.readBlocks.count entry.1 else 0
    omega
  · have exchanged := turn.phaseTotal_next found leaves WorkerPhase.skips fun _ => rfl
    have books := accounted.failed_eq
    have balance := failed_balance timeless turn earlier whole
    change after.failedBlocks + _ =
      after.readBlocks.countP fun index => work.handledAt index = some .skipped
    omega

end Step

end Accounted

end Pool
end MemoryProbe
