import MemoryProbe.Search.Pool
import MemoryProbe.Proofs.Budget.Admission
import MemoryProbe.Proofs.EntrySum
import MemoryProbe.Proofs.Schedule

namespace MemoryProbe
namespace Pool

/-!
The steps of a pool, one by one.  `Turn` lists everything that a step can do: the
phase a worker leaves, the phase it enters, and what all workers share
afterwards.  What every schedule keeps is proved turn by turn, without
opening `step` again.
-/

/-- Every worker that is asleep asks for its bytes again. -/
def awaken (pool : Pool) : Pool :=
  { pool with
    workers := pool.workers.map fun worker =>
      { worker with phase := worker.phase.awaken } }

/-- The four ends of a read: nothing was copied, the copy does not fit the
buffer, the block is there in full, or it stops short. -/
inductive Settles (work : PoolWork) (arena : Arena) (id : Nat) (taken : TakenBlock)
    (region : Region) : Except MemoryError (List UInt8) -> WorkerPhase × Arena -> Prop where
  | failed (cause : MemoryError) :
    Settles work arena id taken region (.error cause)
      (.telling taken region (.failed cause.code?), arena)
  | misfit (bytes : List UInt8) (kind : Fault)
    (unwritten : arena.write id 0 (bytes.take taken.block.length.toNat) = .error kind) :
    Settles work arena id taken region (.ok bytes) (.releasing taken .faulted, arena)
  | whole (bytes : List UInt8) (filled : Arena)
    (written : arena.write id 0 (bytes.take taken.block.length.toNat) = .ok filled)
    (all : bytes.length = taken.block.length.toNat) :
    Settles work arena id taken region (.ok bytes)
      (.releasing taken (matchBuffer work filled id taken.block), filled)
  | short (bytes : List UInt8) (filled : Arena)
    (written : arena.write id 0 (bytes.take taken.block.length.toNat) = .ok filled)
    (less : bytes.length ≠ taken.block.length.toNat) :
    Settles work arena id taken region (.ok bytes)
      (.telling taken region (.short (UInt64.ofNat bytes.length) taken.block.length), filled)

theorem settle_settles (work : PoolWork) (arena : Arena) (id : Nat) (taken : TakenBlock)
    (region : Region) (answer : Except MemoryError (List UInt8)) :
    Settles work arena id taken region answer
      (settle work arena id taken region answer) := by
  unfold settle
  cases answer with
  | error cause => exact .failed cause
  | ok bytes =>
      dsimp only
      split
      · rename_i kind unwritten
        exact .misfit bytes kind unwritten
      · rename_i filled written
        split
        · rename_i all
          exact .whole bytes filled written all
        · rename_i less
          exact .short bytes filled written less

/-- A worker leaves a phase and enters another; the pool in between has the
shared state of afterwards and the worker still in its old phase. -/
inductive Turn (work : PoolWork) (pool : Pool) (id : Nat) :
    WorkerPhase -> Pool -> WorkerPhase -> Prop where
  | quit (given : pool.givesUp = true) : Turn work pool id .ready pool .finished
  | goOn (given : pool.givesUp = false) : Turn work pool id .ready pool .taking
  | take (block : ReadBlock) (found : work.blocks[pool.cursor]? = some block) :
    Turn work pool id .taking { pool with cursor := pool.cursor + 1 }
      (.reserving ⟨pool.cursor, block⟩)
  | runOut (beyond : work.blocks[pool.cursor]? = none) :
    Turn work pool id .taking { pool with cursor := pool.cursor + 1 } .finished
  | refuse (taken : TakenBlock)
    (wide : pool.budget.ceiling.toNat < taken.block.length.toNat) :
    Turn work pool id (.reserving taken) pool
      (.stopping (.budgetExceeded taken.block.length pool.budget.ceiling))
  | overflow (taken : TakenBlock)
    (beyond : UInt64.size ≤ pool.budget.used.toNat + taken.block.length.toNat) :
    Turn work pool id (.reserving taken) pool .faulted
  | sleep (taken : TakenBlock)
    (fits : taken.block.length.toNat ≤ pool.budget.ceiling.toNat)
    (full : pool.budget.ceiling.toNat <
      pool.budget.used.toNat + taken.block.length.toNat) :
    Turn work pool id (.reserving taken) pool (.asleep taken)
  | reserve (taken : TakenBlock) (used : Word)
    (total : used.toNat = pool.budget.used.toNat + taken.block.length.toNat)
    (room : used.toNat ≤ pool.budget.ceiling.toNat) :
    Turn work pool id (.reserving taken)
      { pool with budget := pool.budget.withUsed used } (.reading taken)
  | miss (taken : TakenBlock)
    (missing : work.regions[taken.block.regionIndex]? = none) :
    Turn work pool id (.reading taken) pool (.releasing taken .faulted)
  | read (taken : TakenBlock) (region : Region)
    (answer : Except MemoryError (List UInt8)) (phase : WorkerPhase) (arena : Arena)
    (found : work.regions[taken.block.regionIndex]? = some region)
    (asked : work.reader.target.read pool.trace.reads taken.block.start
      taken.block.length.toNat = answer)
    (ends : Settles work pool.arena id taken region answer (phase, arena)) :
    Turn work pool id (.reading taken)
      { pool with
        arena := arena
        trace := { pool.trace with reads := pool.trace.reads + 1 }
        readBlocks := pool.readBlocks ++ [taken.index] } phase
  | tell (taken : TakenBlock) (region : Region) (failure : ReadFailure) (trace : Trace)
    (told : (work.reader.skip region failure : Run ScanError Unit) pool.trace =
      (.ok (), trace)) :
    Turn work pool id (.telling taken region failure) { pool with trace := trace }
      (.releasing taken .skipped)
  | mistell (taken : TakenBlock) (region : Region) (failure : ReadFailure)
    (stop : Halt ScanError) (trace : Trace)
    (told : (work.reader.skip region failure : Run ScanError Unit) pool.trace =
      (.error stop, trace)) :
    Turn work pool id (.telling taken region failure) { pool with trace := trace }
      (.releasing taken .faulted)
  | release (taken : TakenBlock) (handling : Handling) :
    Turn work pool id (.releasing taken handling)
      { pool with budget := pool.budget.release taken.block.length }
      (.waking taken handling)
  | wake (taken : TakenBlock) (handling : Handling) (whole : handling ≠ .faulted) :
    Turn work pool id (.waking taken handling) pool.awaken (.recording taken handling)
  | wakeFaulted (taken : TakenBlock) :
    Turn work pool id (.waking taken .faulted) pool.awaken .faulted
  | recordHits (taken : TakenBlock) (hits : List Address) :
    Turn work pool id (.recording taken (.matched hits))
      { pool with workers := (pool.keep id taken hits).workers } .ready
  | recordSkip (taken : TakenBlock) :
    Turn work pool id (.recording taken .skipped)
      { pool with failedBlocks := pool.failedBlocks + 1 } .ready
  | recordFault (taken : TakenBlock) :
    Turn work pool id (.recording taken .faulted) pool .faulted
  | stop (cause : ScanError) :
    Turn work pool id (.stopping cause) { pool with givesUp := true } (.explaining cause)
  | explain (cause : ScanError) :
    Turn work pool id (.explaining cause)
      { pool with cause := pool.cause <|> some cause } .finished

variable {work : PoolWork} {pool next : Pool} {id : Nat}

private theorem turn_of_reserve (work : PoolWork) (taken : TakenBlock) :
    ∃ after phase, Turn work pool id (.reserving taken) after phase ∧
      pool.reserve id taken = after.enter id phase := by
  have reserves := pool.budget.acquire_reserves taken.block.length
  unfold reserve
  cases answer : pool.budget.acquire taken.block.length with
  | error stop =>
      rw [answer] at reserves
      cases reserves with
      | refused wide => exact ⟨_, _, .refuse taken wide, rfl⟩
      | overflow fits beyond => exact ⟨_, _, .overflow taken beyond, rfl⟩
  | ok admission =>
      rw [answer] at reserves
      cases reserves with
      | wait fits full => exact ⟨_, _, .sleep taken fits full, rfl⟩
      | granted used total room => exact ⟨_, _, .reserve taken used total room, rfl⟩

private theorem turn_of_read (taken : TakenBlock) :
    ∃ after phase, Turn work pool id (.reading taken) after phase ∧
      Pool.read work pool id taken = after.enter id phase := by
  unfold Pool.read
  cases found : work.regions[taken.block.regionIndex]? with
  | none => exact ⟨_, _, .miss taken found, rfl⟩
  | some region =>
      have ends := settle_settles work pool.arena id taken region
        (work.reader.target.read pool.trace.reads taken.block.start
          taken.block.length.toNat)
      exact ⟨_, _, .read taken region _ _ _ found rfl ends, rfl⟩

private theorem turn_of_tell (taken : TakenBlock) (region : Region)
    (failure : ReadFailure) :
    ∃ after phase, Turn work pool id (.telling taken region failure) after phase ∧
      tell work pool id taken region failure = after.enter id phase := by
  unfold tell
  rcases told : (work.reader.skip region failure : Run ScanError Unit) pool.trace with
    ⟨stop | done, trace⟩
  · exact ⟨_, _, .mistell taken region failure stop trace told, rfl⟩
  · exact ⟨_, _, .tell taken region failure trace told, rfl⟩

/-- Matches are kept with the worker alone. -/
theorem keep_eq (pool : Pool) (id : Nat) (taken : TakenBlock) (hits : List Address) :
    pool.keep id taken hits = { pool with workers := (pool.keep id taken hits).workers } := by
  unfold keep
  split <;> rfl

/-- A worker whose phase has a step takes a turn. -/
theorem exists_turn (work : PoolWork) {worker : Worker}
    (found : pool.workers[id]? = some worker)
    (able : worker.phase.isDone = false ∧ worker.phase.isAsleep = false) :
    ∃ after phase, Turn work pool id worker.phase after phase ∧
      pool.step work id = some (after.enter id phase) := by
  unfold step
  rw [found, Option.bind_eq_bind, Option.bind_some]
  rcases worker with ⟨phase, hits⟩
  cases phase with
  | ready =>
      by_cases given : pool.givesUp = true
      · refine ⟨_, _, .quit given, ?_⟩
        simp [given]
      · refine ⟨_, _, .goOn (Bool.eq_false_iff.mpr given), ?_⟩
        simp [given]
  | taking =>
      cases taken : work.blocks[pool.cursor]? with
      | some block =>
          refine ⟨_, _, .take block taken, ?_⟩
          simp only [takeNext, taken]
          rfl
      | none =>
          refine ⟨_, _, .runOut taken, ?_⟩
          simp only [takeNext, taken]
          rfl
  | reserving taken =>
      rcases turn_of_reserve work taken with ⟨after, phase, turn, same⟩
      exact ⟨after, phase, turn, congrArg some same⟩
  | asleep taken => exact absurd able.2 (by simp [WorkerPhase.isAsleep])
  | reading taken =>
      rcases turn_of_read taken with ⟨after, phase, turn, same⟩
      exact ⟨after, phase, turn, congrArg some same⟩
  | telling taken region failure =>
      rcases turn_of_tell taken region failure with ⟨after, phase, turn, same⟩
      exact ⟨after, phase, turn, congrArg some same⟩
  | releasing taken handling => exact ⟨_, _, .release taken handling, rfl⟩
  | waking taken handling =>
      cases handling with
      | matched hits => exact ⟨_, _, .wake taken _ (by simp), rfl⟩
      | skipped => exact ⟨_, _, .wake taken _ (by simp), rfl⟩
      | faulted => exact ⟨_, _, .wakeFaulted taken, rfl⟩
  | recording taken handling =>
      cases handling with
      | matched hits =>
          refine ⟨_, _, .recordHits taken hits, ?_⟩
          change some ((pool.keep id taken hits).enter id .ready) = _
          rw [keep_eq]
      | skipped => exact ⟨_, _, .recordSkip taken, rfl⟩
      | faulted => exact ⟨_, _, .recordFault taken, rfl⟩
  | stopping cause => exact ⟨_, _, .stop cause, rfl⟩
  | explaining cause => exact ⟨_, _, .explain cause, rfl⟩
  | finished => exact absurd able.1 (by simp [WorkerPhase.isDone])
  | faulted => exact absurd able.1 (by simp [WorkerPhase.isDone])

/-- A step is a turn of a worker that is neither done nor asleep. -/
theorem turn_of_step (stepped : pool.step work id = some next) :
    ∃ worker before after phase, pool.workers[id]? = some worker ∧
      worker.phase = before ∧ Turn work pool id before after phase ∧
      next = after.enter id phase := by
  cases found : pool.workers[id]? with
  | none =>
      unfold step at stepped
      rw [found] at stepped
      contradiction
  | some worker =>
      by_cases able : worker.phase.isDone = false ∧ worker.phase.isAsleep = false
      · rcases exists_turn work found able with ⟨after, phase, turn, same⟩
        rw [stepped, Option.some.injEq] at same
        exact ⟨worker, _, after, phase, rfl, rfl, turn, same⟩
      · -- The phases without a step are those that `able` excludes.
        unfold step at stepped
        rw [found] at stepped
        rcases worker with ⟨phase, hits⟩
        cases phase <;> simp [WorkerPhase.isDone, WorkerPhase.isAsleep] at able stepped

/-- Workers that begin have found nothing and are all ready. -/
theorem exists_arena_of_start {workers : Word} {budget : Budget} {trace : Trace}
    (started : Pool.start work workers budget trace = .ok pool) :
    ∃ arena, Arena.make workers ((longestBlock? work.blocks).getD 0) = .ok arena ∧
      pool =
        { workers := List.replicate workers.toNat {}
          arena := arena
          budget := budget
          trace := trace } := by
  unfold Pool.start at started
  cases made : Arena.make workers ((longestBlock? work.blocks).getD 0) with
  | error cause =>
      rw [made] at started
      contradiction
  | ok arena =>
      rw [made] at started
      cases started
      exact ⟨arena, rfl, rfl⟩

/-- What every step keeps, every schedule keeps. -/
theorem follow_induction (holds : Pool -> Prop)
    (keeps : forall pool id next, holds pool -> step work pool id = some next -> holds next)
    {schedule : List Nat} {first last : Pool} (begins : holds first)
    (followed : first.follow work schedule = some last) : holds last :=
  foldlM_induction holds keeps begins followed

/-! ## What a step does to each worker -/

/-- A worker with the matches of a block behind those it found before. -/
def withHits (worker : Worker) (taken : TakenBlock) (hits : List Address) : Worker :=
  if hits.isEmpty then worker
  else { worker with found := worker.found ++ [(taken.index, hits)] }

theorem withHits_phase (worker : Worker) (taken : TakenBlock) (hits : List Address) :
    (withHits worker taken hits).phase = worker.phase := by
  unfold withHits
  split <;> rfl

theorem keep_workers {worker : Worker} (found : pool.workers[id]? = some worker)
    (taken : TakenBlock) (hits : List Address) :
    (pool.keep id taken hits).workers = pool.workers.set id (withHits worker taken hits) := by
  have unchanged : pool.workers.modify id (fun worker => worker) =
      pool.workers.set id worker := modify_eq_set found
  unfold keep withHits
  split
  · rw [<- unchanged]
    exact (List.modify_id id pool.workers).symm
  · exact modify_eq_set found

/-- Only the worker of the turn enters a phase of its choice; the others stay
where they are, or ask again if the turn wakes them. -/
theorem Turn.phase_next {worker : Worker} {before phase : WorkerPhase} {after : Pool}
    (turn : Turn work pool id before after phase)
    (found : pool.workers[id]? = some worker) (place : Nat) :
    ((after.enter id phase).workers[place]?).map Worker.phase =
      if place = id then some phase
      else (pool.workers[place]?).map fun other =>
        if before.isWaking then other.phase.awaken else other.phase := by
  have inside := (List.getElem?_eq_some_iff.mp found).1
  have woken : forall place : Nat, (pool.awaken.workers[place]?).map Worker.phase =
      (pool.workers[place]?).map fun other => other.phase.awaken := by
    intro place
    unfold awaken
    rw [List.getElem?_map, Option.map_map]
    rfl
  have kept : forall (taken : TakenBlock) (hits : List Address) (place : Nat),
      ((pool.keep id taken hits).workers[place]?).map Worker.phase =
        (pool.workers[place]?).map Worker.phase := by
    intro taken hits place
    rw [keep_workers found, List.getElem?_set]
    by_cases same : id = place
    · subst place
      simp only [if_true, inside, found, Option.map_some, withHits_phase]
    · simp only [same, if_false]
  have others : (after.workers[place]?).map Worker.phase =
      (pool.workers[place]?).map fun other =>
        if before.isWaking then other.phase.awaken else other.phase := by
    cases turn with
    | wake taken handling whole => exact woken place
    | wakeFaulted taken => exact woken place
    | recordHits taken hits => exact kept taken hits place
    | _ => rfl
  unfold enter
  rw [List.getElem?_modify]
  by_cases same : place = id
  · subst place
    have some_ : (after.workers[id]?).isSome := by
      have shown := congrArg Option.isSome others
      simpa [found] using shown
    rcases Option.isSome_iff_exists.mp some_ with ⟨middle, there⟩
    simp [there]
  · rw [if_neg same, <- others]
    simp [Ne.symm same]

/-- A worker of the next pool is the one that turned or one of the others. -/
theorem Turn.mem_next {worker other : Worker} {before phase : WorkerPhase} {after : Pool}
    (turn : Turn work pool id before after phase)
    (found : pool.workers[id]? = some worker)
    (member : other ∈ (after.enter id phase).workers) :
    other.phase = phase ∨ ∃ place old, place ≠ id ∧ pool.workers[place]? = some old ∧
      other.phase = if before.isWaking then old.phase.awaken else old.phase := by
  rcases List.getElem?_of_mem member with ⟨place, there⟩
  have shown := turn.phase_next found place
  rw [there, Option.map_some] at shown
  by_cases same : place = id
  · rw [if_pos same, Option.some.injEq] at shown
    exact Or.inl shown
  · rw [if_neg same] at shown
    rcases Option.map_eq_some_iff.mp shown.symm with ⟨old, before_, equal⟩
    exact Or.inr ⟨place, old, same, before_, equal.symm⟩

/-- What the phases of all workers have in common, and waking up leaves alone, they
have in common after a turn into another such phase. -/
theorem Turn.forall_next {worker : Worker} {before phase : WorkerPhase} {after : Pool}
    (turn : Turn work pool id before after phase)
    (found : pool.workers[id]? = some worker) (holds : WorkerPhase -> Prop)
    (woken : forall phase, holds phase -> holds phase.awaken)
    (all : forall other, other ∈ pool.workers -> holds other.phase) (entered : holds phase) :
    forall other, other ∈ (after.enter id phase).workers -> holds other.phase := by
  intro other member
  rcases turn.mem_next found member with same | ⟨place, old, -, there, same⟩
  · exact same ▸ entered
  · have earlier := all old (List.mem_of_getElem? there)
    rw [same]
    split
    · exact woken _ earlier
    · exact earlier

/-- Who has finished after a turn is the one that turned or had finished before. -/
theorem Turn.finished_next {worker other : Worker} {before phase : WorkerPhase} {after : Pool}
    (turn : Turn work pool id before after phase)
    (found : pool.workers[id]? = some worker)
    (member : other ∈ (after.enter id phase).workers) (done : other.phase = .finished) :
    phase = .finished ∨ ∃ old, old ∈ pool.workers ∧ old.phase = .finished := by
  rcases turn.mem_next found member with same | ⟨place, old, -, there, same⟩
  · exact Or.inl (same ▸ done)
  · refine Or.inr ⟨old, List.mem_of_getElem? there, ?_⟩
    rw [done] at same
    split at same
    · cases old_phase : old.phase with
      | finished => rfl
      | _ =>
          rw [old_phase] at same
          contradiction
    · exact same.symm

/-! ## Sums over the workers -/

/-- The sum of a weight of the phases of all workers. -/
def phaseTotal (weigh : WorkerPhase -> Nat) (pool : Pool) : Nat :=
  (pool.workers.map fun worker => weigh worker.phase).sum

/-- The weight of the phase that is entered is part of the sum afterwards. -/
theorem Turn.weight_le {worker : Worker} {before phase : WorkerPhase} {after : Pool}
    (turn : Turn work pool id before after phase)
    (found : pool.workers[id]? = some worker) (weigh : WorkerPhase -> Nat) :
    weigh phase ≤ (after.enter id phase).phaseTotal weigh := by
  have place := turn.phase_next found id
  rw [if_pos rfl] at place
  rcases Option.map_eq_some_iff.mp place with ⟨later, there, same⟩
  have part := le_sum_of_mem (fun worker => weigh worker.phase) (List.mem_of_getElem? there)
  rw [same] at part
  exact part

/-- How often an entry was recorded by all workers. -/
def foundCount (entry : Nat × List Address) (pool : Pool) : Nat :=
  (pool.workers.map fun worker => worker.found.count entry).sum

theorem awaken_getElem? {worker : Worker} (found : pool.workers[id]? = some worker) :
    pool.awaken.workers[id]? = some { worker with phase := worker.phase.awaken } := by
  unfold awaken
  rw [List.getElem?_map, found, Option.map_some]

/-- Before its new phase is entered, the worker of a turn is in its old one. -/
theorem Turn.worker_after {worker : Worker} {before phase : WorkerPhase} {after : Pool}
    (turn : Turn work pool id before after phase)
    (found : pool.workers[id]? = some worker) (leaves : worker.phase = before) :
    ∃ kept, after.workers[id]? = some kept ∧ kept.phase = before := by
  have inside := (List.getElem?_eq_some_iff.mp found).1
  cases turn with
  | wake taken handling whole =>
      exact ⟨_, awaken_getElem? found, by rw [leaves]; rfl⟩
  | wakeFaulted taken =>
      exact ⟨_, awaken_getElem? found, by rw [leaves]; rfl⟩
  | recordHits taken hits =>
      refine ⟨withHits worker taken hits, ?_, (withHits_phase _ _ _).trans leaves⟩
      rw [keep_workers found, List.getElem?_set_self inside]
  | _ => exact ⟨worker, found, leaves⟩

/-- Recording matches changes no phase. -/
theorem phaseTotal_keep {worker : Worker} (found : pool.workers[id]? = some worker)
    (taken : TakenBlock) (hits : List Address) (weigh : WorkerPhase -> Nat) :
    (pool.keep id taken hits).phaseTotal weigh = pool.phaseTotal weigh := by
  have exchanged := sum_map_set (fun worker => weigh worker.phase)
    (withHits worker taken hits) found
  unfold phaseTotal
  rw [keep_workers found]
  simp only [withHits_phase] at exchanged
  omega

/-- A weight that does not tell a worker asleep from one that reserves changes
with the phase of the turning worker alone. -/
theorem Turn.phaseTotal_after {worker : Worker} {before phase : WorkerPhase} {after : Pool}
    (turn : Turn work pool id before after phase)
    (found : pool.workers[id]? = some worker) (weigh : WorkerPhase -> Nat)
    (blind : forall taken, weigh (.asleep taken) = weigh (.reserving taken)) :
    after.phaseTotal weigh = pool.phaseTotal weigh := by
  have woken : pool.awaken.phaseTotal weigh = pool.phaseTotal weigh := by
    unfold phaseTotal awaken
    rw [List.map_map]
    refine congrArg List.sum (List.map_congr_left fun other _ => ?_)
    rw [Function.comp_apply]
    cases other.phase with
    | asleep taken => exact (blind taken).symm
    | _ => rfl
  cases turn with
  | wake taken handling whole => exact woken
  | wakeFaulted taken => exact woken
  | recordHits taken hits => exact phaseTotal_keep found taken hits weigh
  | _ => rfl

/-- Entering a phase exchanges the weight of the worker. -/
theorem phaseTotal_enter {worker : Worker} (found : pool.workers[id]? = some worker)
    (weigh : WorkerPhase -> Nat) (phase : WorkerPhase) :
    (pool.enter id phase).phaseTotal weigh + weigh worker.phase =
      pool.phaseTotal weigh + weigh phase := by
  unfold phaseTotal enter
  rw [modify_eq_set found]
  exact sum_map_set (fun worker => weigh worker.phase) { worker with phase := phase } found

/-- How a whole step changes the sum of such a weight. -/
theorem Turn.phaseTotal_next {worker : Worker} {before phase : WorkerPhase} {after : Pool}
    (turn : Turn work pool id before after phase)
    (found : pool.workers[id]? = some worker) (leaves : worker.phase = before)
    (weigh : WorkerPhase -> Nat)
    (blind : forall taken, weigh (.asleep taken) = weigh (.reserving taken)) :
    (after.enter id phase).phaseTotal weigh + weigh before =
      pool.phaseTotal weigh + weigh phase := by
  rcases turn.worker_after found leaves with ⟨kept, place, same⟩
  have entered := phaseTotal_enter place weigh phase
  rw [same, turn.phaseTotal_after found weigh blind] at entered
  exact entered

end Pool
end MemoryProbe
