import MemoryProbe.Proofs.Pool.Findings
import MemoryProbe.Proofs.Pool.Telling

namespace MemoryProbe

/-!
The end of a pool in which workers met faults.  The workers are joined in their order, and a
fault is taken over from the worker that is joined; but joining ends with the first fault, and
the pool as a whole faults if another one is left behind it.  So one fault is laid to its worker
and two are not.  How many workers meet a fault is told by the blocks: each block that comes to a
fault ends one worker, as long as there are workers.  The bytes of a block are given back even so.
-/

namespace Pool

theorem finished_or_faulted {phase : WorkerPhase} (done : phase.isDone = true) :
    phase = .finished ∨ phase = .faulted := by
  cases phase with
  | finished => exact Or.inl rfl
  | faulted => exact Or.inr rfl
  | _ => cases done

theorem phaseTotal_eq_zero_of_isDone {pool : Pool} {weigh : WorkerPhase -> Nat}
    (done : pool.isDone = true) (finished : weigh .finished = 0) (faulted : weigh .faulted = 0) :
    pool.phaseTotal weigh = 0 := by
  refine phaseTotal_eq_zero_iff.mpr fun worker member => ?_
  rcases finished_or_faulted (List.all_eq_true.mp done worker member) with ended | ended
  · rw [ended, finished]
  · rw [ended, faulted]

/-- Once all workers are done, those with a fault are the troubled ones. -/
theorem length_faultedFrom {workers : List Worker} (id : Nat)
    (done : forall worker, worker ∈ workers -> worker.phase.isDone = true) :
    (faultedFrom id workers).length =
      (workers.map fun worker => worker.phase.trouble).sum := by
  induction workers generalizing id with
  | nil => rfl
  | cons worker rest ih =>
      have ended := done worker List.mem_cons_self
      have others := ih (id + 1) fun other member => done other (List.mem_cons_of_mem _ member)
      rw [faultedFrom, List.map_cons, List.sum_cons, <- others]
      rcases finished_or_faulted ended with phase | phase
      · rw [phase, if_neg (by simp)]
        exact (Nat.zero_add _).symm
      · rw [phase, if_pos rfl]
        exact Nat.add_comm _ _

end Pool

/-! ## Blocks that come to a fault -/

namespace PoolWork

/-- The number of blocks, up to a number, that come to a fault. -/
def faultsBelow (work : PoolWork) (number : Nat) : Nat :=
  (work.blocks.take number).countP fun block => work.handled block = .faulted

/-- Whether a worker is on its way to a block that comes to a fault. -/
def dooms (work : PoolWork) : WorkerPhase -> Nat
  | .reserving taken => if work.handled taken.block = .faulted then 1 else 0
  | .asleep taken => if work.handled taken.block = .faulted then 1 else 0
  | .reading taken => if work.handled taken.block = .faulted then 1 else 0
  | _ => 0

variable {work : PoolWork}

theorem faultsBelow_succ {number : Nat} {block : ReadBlock}
    (there : work.blocks[number]? = some block) :
    work.faultsBelow (number + 1) =
      work.faultsBelow number + if work.handled block = .faulted then 1 else 0 := by
  unfold faultsBelow
  rw [List.take_add_one, there, Option.toList_some, List.countP_append, List.countP_singleton]
  simp only [decide_eq_true_eq]

/-- Behind the last block there is none to come to a fault. -/
theorem faultsBelow_of_le {number : Nat} (past : work.blocks.length ≤ number) :
    work.faultsBelow number = work.blocks.countP fun block => work.handled block = .faulted := by
  unfold faultsBelow
  rw [List.take_of_length_le past]

theorem faultsBelow_le (number : Nat) :
    work.faultsBelow number ≤
      work.blocks.countP fun block => work.handled block = .faulted :=
  (List.take_sublist number work.blocks).countP_le

/-- What a worker holds is no longer than the longest block. -/
theorem heldBytes_le_of_credible {phase : WorkerPhase} {longest : Nat}
    (fits : forall block, block ∈ work.blocks -> block.length.toNat ≤ longest)
    (credible : work.Credible phase) : phase.heldBytes ≤ longest := by
  cases phase with
  | reading taken => exact fits _ (List.mem_of_getElem? credible)
  | telling taken region failure => exact fits _ (List.mem_of_getElem? credible.1)
  | releasing taken handling => exact fits _ (List.mem_of_getElem? credible.1)
  | _ => exact Nat.zero_le _

end PoolWork

namespace Pool

variable {work : PoolWork} {longest : Nat} {ceiling : Word} {pool next after : Pool} {id : Nat}
  {worker : Worker} {before phase : WorkerPhase}

/-- The faults of a pool are those of the blocks that were taken. -/
structure Harmed (work : PoolWork) (longest : Nat) (pool : Pool) : Prop where
  serves : pool.arena.Serves pool.workers.length longest
  room : pool.workers.length * longest < UInt64.size
  harm_eq : work.faultsBelow pool.cursor =
    pool.phaseTotal WorkerPhase.trouble + pool.phaseTotal work.dooms

namespace Harmed

theorem start {workers : Word} {budget : Budget} {trace : Trace} (manned : workers ≠ 0)
    (started : Pool.start work workers budget trace = .ok pool) :
    Harmed work ((longestBlock? work.blocks).getD 0).toNat pool := by
  rcases Faultless.start manned started with ⟨faultless, room⟩
  rcases exists_arena_of_start started with ⟨arena, -, rfl⟩
  have idle : forall weigh : WorkerPhase -> Nat, weigh .ready = 0 ->
      phaseTotal weigh
        { workers := List.replicate workers.toNat {}
          arena := arena
          budget := budget
          trace := trace } = 0 := by
    intro weigh none
    refine phaseTotal_eq_zero_iff.mpr fun worker member => ?_
    rw [List.eq_of_mem_replicate member]
    exact none
  refine ⟨faultless.serves, room, ?_⟩
  rw [idle _ rfl, idle _ rfl]
  rfl

section Step

variable (harmed : Harmed work longest pool) (timeless : work.reader.target.Timeless)
  (short : forall block, block ∈ work.blocks -> block.length.toNat ≤ longest)
  (fits : forall block, block ∈ work.blocks -> block.length ≤ ceiling)
  (watched : Watched ceiling pool)
  (findings : Findings work pool) (legible : pool.TellsOf ReadFailure.Legible)
  (turn : Turn work pool id before after phase)
  (found : pool.workers[id]? = some worker) (leaves : worker.phase = before)

include harmed timeless short

/-- A read comes to a fault exactly if its block does. -/
theorem trouble_of_settles {taken : TakenBlock} {region : Region}
    {answer : Except MemoryError (List UInt8)} {filled : Arena}
    (inside : id < pool.workers.length) (member : taken.block ∈ work.blocks)
    (there : work.regions[taken.block.regionIndex]? = some region)
    (asked : work.reader.target.read pool.trace.reads taken.block.start
      taken.block.length.toNat = answer)
    (ends : Settles work pool.arena id taken region answer (phase, filled)) :
    phase.trouble + work.dooms phase = work.dooms (.reading taken) := by
  have comes : work.handled taken.block = work.handledAfter taken.block answer := by
    rw [PoolWork.handled, there, <- asked, timeless pool.trace.reads 0]
  unfold PoolWork.dooms
  dsimp only
  rw [comes]
  cases ends with
  | failed cause => rfl
  | misfit bytes kind unwritten =>
      have less := List.length_take_le taken.block.length.toNat bytes
      rcases harmed.serves.exists_write inside (Nat.le_trans less (short _ member)) with
        ⟨filled, written⟩
      cases written.symm.trans unwritten
  | whole bytes filled written all =>
      have whole : bytes.take taken.block.length.toNat = bytes :=
        List.take_of_length_le (Nat.le_of_eq all)
      rw [whole] at written
      rw [PoolWork.matchBuffer_eq written all, PoolWork.handledAfter, if_pos all]
      cases work.matchBytes taken.block bytes <;> rfl
  | short bytes filled written less =>
      rw [PoolWork.handledAfter, if_neg less]
      rfl

include fits watched findings legible turn found leaves

/-- A fault is met where it was waited for, and nowhere else. -/
theorem harm_balance :
    work.faultsBelow after.cursor + before.trouble + work.dooms before =
      work.faultsBelow pool.cursor + phase.trouble + work.dooms phase := by
  have inside := (List.getElem?_eq_some_iff.mp found).1
  have credible := leaves ▸ findings.credible worker (List.mem_of_getElem? found)
  have clear := leaves ▸ legible worker (List.mem_of_getElem? found)
  cases turn with
  | take block there =>
      rw [PoolWork.faultsBelow_succ there]
      rfl
  | runOut beyond =>
      have past := List.getElem?_eq_none_iff.mp beyond
      rw [PoolWork.faultsBelow_of_le past, PoolWork.faultsBelow_of_le (Nat.le_succ_of_le past)]
      rfl
  | refuse taken wide =>
      have low := fits taken.block (List.mem_of_getElem? credible)
      rw [watched.ceiling_eq] at wide
      exact absurd (UInt64.lt_iff_toNat_lt.mpr wide) (UInt64.not_lt.mpr low)
  | overflow taken beyond =>
      have less := watched.used_add_lt
        (fun other member => PoolWork.heldBytes_le_of_credible short
          (findings.credible other member))
        harmed.room found (by rw [leaves]; rfl) (short _ (List.mem_of_getElem? credible))
      omega
  | miss taken missing =>
      have faulty : work.handled taken.block = .faulted := by
        rw [PoolWork.handled, missing]
      rw [PoolWork.dooms, if_pos faulty]
      rfl
  | read taken region answer phase filled there asked ends =>
      have same := harmed.trouble_of_settles timeless short inside
        (List.mem_of_getElem? credible) there asked ends
      change work.faultsBelow pool.cursor + 0 + work.dooms (.reading taken) =
        work.faultsBelow pool.cursor + phase.trouble + work.dooms phase
      omega
  | mistell taken region failure stop trace told =>
      exact absurd told (Reader.skip_ne_stopped clear)
  | release taken handling => cases handling <;> rfl
  | wake taken handling whole => cases handling <;> rfl
  | _ => rfl

theorem step_turn : Harmed work longest (after.enter id phase) := by
  have troubled := turn.phaseTotal_next found leaves WorkerPhase.trouble fun _ => rfl
  have doomed := turn.phaseTotal_next found leaves work.dooms fun _ => rfl
  have balance := harmed.harm_balance timeless short fits watched findings legible turn found
    leaves
  have books := harmed.harm_eq
  have serves := turn.serves harmed.serves
  have number : (after.enter id phase).workers.length = pool.workers.length := by
    rw [length_enter, turn.length_after]
  refine ⟨number ▸ serves, number ▸ harmed.room, ?_⟩
  change work.faultsBelow after.cursor = _
  omega

end Step

/-- Faults have nothing to do with the sign to give up. -/
theorem withSign (harmed : Harmed work longest pool) (given : Bool) :
    Harmed work longest { pool with givesUp := given } :=
  ⟨harmed.serves, harmed.room, harmed.harm_eq⟩

end Harmed

section Whole

variable {workers : Word} {trace : Trace} {schedule : List (Nat × Bool)} {first last : Pool}
  (started : Pool.start work workers { ceiling := ceiling } trace = .ok first)
  (drifted : first.drift work schedule = some last)

include started drifted

/-- So it is behind any schedule. -/
theorem harmed_of_drift (manned : workers ≠ 0) (timeless : work.reader.target.Timeless)
    (honest : work.reader.target.Honest)
    (fits : forall block, block ∈ work.blocks -> block.length ≤ ceiling) :
    Harmed work ((longestBlock? work.blocks).getD 0).toNat last := by
  have through := work.reader.tellsThrough_silent honest Sink.unlimited
  have kept := drift_induction
    (fun pool => Watched ceiling pool ∧ Findings work pool ∧
      pool.TellsOf ReadFailure.Legible ∧
      Harmed work ((longestBlock? work.blocks).getD 0).toNat pool)
    (by
      rintro pool id knows next ⟨watched, findings, legible, harmed⟩ moved
      refine ⟨watched.stepKnowing moved, findings.stepKnowing moved,
        tellsOf_stepKnowing through legible moved, ?_⟩
      rcases exists_step_of_stepKnowing moved with ⟨later, stepped, rfl⟩
      rcases turn_of_step stepped with ⟨worker, before, after, phase, found, leaves, turn, rfl⟩
      exact ((harmed.withSign (pool.givesUp && knows)).step_turn timeless
        (fun block member => le_longestBlock member) fits (watched.withSign _)
        (findings.withSign _) legible turn found leaves).withSign _)
    ⟨Watched.start rfl started, Findings.start started, tellsOf_start started,
      Harmed.start manned started⟩ drifted
  exact kept.2.2.2

/-- Each block that comes to a fault ends a worker, as long as there are workers. -/
theorem length_faultedWorkers_of_isDone (manned : workers ≠ 0)
    (timeless : work.reader.target.Timeless) (honest : work.reader.target.Honest)
    (fits : forall block, block ∈ work.blocks -> block.length ≤ ceiling)
    (done : last.isDone = true) :
    last.faultedWorkers.length =
      min workers.toNat (work.blocks.countP fun block => work.handled block = .faulted) := by
  have harmed := harmed_of_drift started drifted manned timeless honest fits
  rcases refusing_of_drift started drifted with ⟨watched, refusing⟩
  have unrefused := refusing.unrefused fits watched
  have each := List.all_eq_true.mp done
  have number : last.workers.length = workers.toNat := by
    rcases exists_arena_of_start started with ⟨arena, -, rfl⟩
    rw [drift_length drifted, List.length_replicate]
  have calm : last.phaseTotal work.dooms = 0 := phaseTotal_eq_zero_of_isDone done rfl rfl
  have harm : last.faultedWorkers.length = work.faultsBelow last.cursor := by
    rw [harmed.harm_eq, calm, faultedWorkers_eq, length_faultedFrom 0 each]
    rfl
  have few : last.faultedWorkers.length ≤ workers.toNat := by
    rw [<- number, <- @List.length_range last.workers.length]
    exact List.length_filter_le _ _
  by_cases ends : ∃ worker, worker ∈ last.workers ∧ worker.phase = .finished
  · -- Somebody went behind the last block, so all blocks were taken.
    rcases ends with ⟨worker, member, finished⟩
    have past : work.blocks.length ≤ last.cursor :=
      (refusing.behind worker member finished).resolve_right unrefused.not_refused
    rw [PoolWork.faultsBelow_of_le past] at harm
    omega
  · -- Nobody is left.
    have all : last.faultedWorkers.length = last.workers.length := by
      have every : (last.workers.map fun worker => worker.phase.trouble) =
          List.replicate last.workers.length 1 := by
        refine List.eq_replicate_iff.mpr ⟨List.length_map _, fun weight member => ?_⟩
        rcases List.mem_map.mp member with ⟨worker, among, rfl⟩
        rcases finished_or_faulted (each worker among) with phase | phase
        · exact absurd ⟨worker, among, phase⟩ ends
        · rw [phase]
          rfl
      rw [faultedWorkers_eq, length_faultedFrom 0 each, every, List.sum_replicate_nat,
        Nat.mul_one]
    have below := work.faultsBelow_le last.cursor
    omega

end Whole

/-- What the pool comes to tells how many workers met a fault: none, one with its number, or
several without. -/
theorem answer_of_faults {work : PoolWork} {pool : Pool} {ceiling : Word}
    (exceeds : forall cause, pool.cause = some cause -> work.Exceeds ceiling cause) :
    (forall id, pool.answer work = .error (.failure (.workerPanicked id)) <->
        pool.faultedWorkers = [id]) ∧
      forall kind, pool.answer work = .error (.fault kind) <->
        kind = .severalWorkers ∧ 2 ≤ pool.faultedWorkers.length := by
  rw [answer_eq_of_faults]
  rcases pool.faultedWorkers with none | ⟨first, _ | ⟨second, rest⟩⟩
  · cases left : pool.cause with
    | none => simp
    | some cause =>
        rcases exceeds cause left with ⟨block, -, -, rfl⟩
        simp
  · simp
  · simp [eq_comm]

/-- A pool in which workers met faults.  Every schedule ends, and behind each of them all
bytes are given back.  If exactly one worker met a fault, it is laid to that worker; if several
did, the pool itself faults.  Where each block is answered the same at any time and fits the
ceiling, every block that comes to a fault ends a worker, as long as there are workers. -/
theorem pool_blames_single_fault {work : PoolWork} {workers ceiling : Word} {trace : Trace}
    {first : Pool}
    (started : Pool.start work workers { ceiling := ceiling } trace = .ok first)
    (schedule : List (Nat × Bool)) (last : Pool)
    (drifted : first.drift work schedule = some last) :
    schedule.length ≤ (workers.toNat + 9) * work.blocks.length + 2 * workers.toNat ∧
      (last.isDone = true ∨ ∃ id next, last.step work id = some next) ∧
      (last.isDone = true ->
        last.budget.used = 0 ∧
        (forall id, last.answer work = .error (.failure (.workerPanicked id)) <->
          last.faultedWorkers = [id]) ∧
        (forall kind, last.answer work = .error (.fault kind) <->
          kind = .severalWorkers ∧ 2 ≤ last.faultedWorkers.length) ∧
        (workers ≠ 0 -> work.reader.target.Timeless -> work.reader.target.Honest ->
          (forall block, block ∈ work.blocks -> block.length ≤ ceiling) ->
          last.faultedWorkers.length =
            min workers.toNat
              (work.blocks.countP fun block => work.handled block = .faulted))) := by
  rcases refusing_of_drift started drifted with ⟨watched, refusing⟩
  have bound := length_add_potential_le_of_drift drifted
  rw [potential_start started] at bound
  refine ⟨by omega, watched.isDone_or_step, fun done => ⟨?_, ?_⟩⟩
  · have used := watched.used_eq
    rw [phaseTotal_eq_zero_of_isDone done rfl rfl] at used
    exact UInt64.toNat_inj.mp used
  · rcases answer_of_faults refusing.cause_exceeds with ⟨one, several⟩
    exact ⟨one, several, fun manned timeless honest fits =>
      length_faultedWorkers_of_isDone started drifted manned timeless honest fits done⟩

/-- Two blocks of one byte, the first of which lies in no region. -/
def strayWork : PoolWork :=
  { pairWork with blocks := [⟨⟨0⟩, 1, 5⟩, ⟨⟨1⟩, 1, 0⟩] }

/-- The block without a region ends the second worker, and the first one reads the other. -/
theorem pool_blames_single_fault_of_stray :
    ∃ first last, Pool.start strayWork 2 { ceiling := 1 } {} = .ok first ∧
      first.drift strayWork ([1, 1, 1, 1, 1, 1, 0, 0, 0, 0, 0, 0, 0, 0, 0].map fun id =>
        (id, true)) = some last ∧
      last.answer strayWork = .error (.failure (.workerPanicked 1)) ∧
      last.faultedWorkers.length = 1 ∧ last.budget.used = 0 := by
  rcases @pool_blames_single_fault strayWork 2 1 {} _ rfl
    ([1, 1, 1, 1, 1, 1, 0, 0, 0, 0, 0, 0, 0, 0, 0].map fun id => (id, true)) _ rfl with
    ⟨-, -, ended⟩
  rcases ended rfl with ⟨unused, one, -, -⟩
  exact ⟨_, _, rfl, rfl, (one 1).mpr rfl, rfl, unused⟩

/-- Two blocks of one byte that lie in no region. -/
def strayPair : PoolWork :=
  { pairWork with blocks := [⟨⟨0⟩, 1, 5⟩, ⟨⟨1⟩, 1, 5⟩] }

/-- Where both workers meet a fault, the first one is not blamed: the pool itself faults. -/
theorem pool_faults_on_second :
    ∃ first last, Pool.start strayPair 2 { ceiling := 1 } {} = .ok first ∧
      first.drift strayPair ([0, 0, 0, 0, 0, 0, 1, 1, 1, 1, 1, 1].map fun id =>
        (id, true)) = some last ∧
      last.isDone = true ∧ last.faultedWorkers = [0, 1] ∧
      last.answer strayPair = .error (.fault .severalWorkers) ∧
      last.answer strayPair ≠ .error (.failure (.workerPanicked 0)) := by
  refine ⟨_, _, rfl, rfl, rfl, rfl, rfl, ?_⟩
  intro blamed
  cases blamed

end Pool
end MemoryProbe
