import MemoryProbe.Proofs.Pool.Turn

namespace MemoryProbe
namespace Pool

/-!
Waiting for room.  The bytes in use are those that the workers hold, and a worker
that is asleep holds none.  A worker sleeps only as long as its request does not
fit or a worker is about to wake the others, so the pool as a whole never sleeps:
as long as a worker is not done, some worker has a step.
-/

/-- The accounts of the budget, and what a worker asleep can count on. -/
structure Watched (ceiling : Word) (pool : Pool) : Prop where
  ceiling_eq : pool.budget.ceiling = ceiling
  used_eq : pool.budget.used.toNat = pool.phaseTotal WorkerPhase.heldBytes
  used_le : pool.budget.used.toNat ≤ ceiling.toNat
  /-- Nobody sleeps for more than the budget could ever give. -/
  asleep_le : forall worker taken, worker ∈ pool.workers ->
    worker.phase = .asleep taken -> taken.block.length.toNat ≤ ceiling.toNat
  /-- A request that fits is slept on only until the pending wake-up. -/
  asleep_full : forall worker taken, worker ∈ pool.workers ->
    worker.phase = .asleep taken ->
    pool.budget.used.toNat + taken.block.length.toNat ≤ ceiling.toNat ->
    ∃ other, other ∈ pool.workers ∧ other.phase.isWaking = true

/-- Being woken changes what a worker waits for, not whom it wakes. -/
theorem isWaking_awaken (phase : WorkerPhase) : phase.awaken.isWaking = phase.isWaking := by
  cases phase <;> rfl

theorem awaken_ne_asleep (phase : WorkerPhase) (taken : TakenBlock) :
    phase.awaken ≠ .asleep taken := by
  cases phase <;> simp [WorkerPhase.awaken]

/-- A worker that holds bytes has a step. -/
theorem able_of_heldBytes {phase : WorkerPhase} (holds : 0 < phase.heldBytes) :
    phase.isDone = false ∧ phase.isAsleep = false := by
  cases phase with
  | reading taken => exact ⟨rfl, rfl⟩
  | telling taken region failure => exact ⟨rfl, rfl⟩
  | releasing taken handling => exact ⟨rfl, rfl⟩
  | _ => exact absurd holds (Nat.lt_irrefl 0)

/-- A worker that is about to wake the others has a step. -/
theorem able_of_isWaking {phase : WorkerPhase} (waking : phase.isWaking = true) :
    phase.isDone = false ∧ phase.isAsleep = false := by
  cases phase with
  | waking taken handling => exact ⟨rfl, rfl⟩
  | _ => exact absurd waking Bool.false_ne_true

namespace Watched

variable {work : PoolWork} {ceiling : Word} {pool next : Pool} {id : Nat}

theorem start {workers : Word} {budget : Budget} {trace : Trace}
    (unused : budget.used = 0) (started : Pool.start work workers budget trace = .ok pool) :
    Watched budget.ceiling pool := by
  rcases exists_arena_of_start started with ⟨arena, -, rfl⟩
  have allReady : forall worker, worker ∈ List.replicate workers.toNat ({} : Worker) ->
      worker.phase = .ready := fun worker member =>
    congrArg Worker.phase (List.eq_of_mem_replicate member)
  refine ⟨rfl, ?_, ?_, ?_, ?_⟩
  · rw [unused]
    unfold phaseTotal
    rw [List.map_replicate]
    simp [WorkerPhase.heldBytes]
  · rw [unused]
    exact Nat.zero_le _
  · intro worker taken member asleep
    rw [allReady worker member] at asleep
    contradiction
  · intro worker taken member asleep
    rw [allReady worker member] at asleep
    contradiction

/-- A worker that has not turned is waking afterwards if it was before. -/
theorem waking_stays {worker other : Worker} {before phase : WorkerPhase} {after : Pool}
    (turn : Turn work pool id before after phase)
    (found : pool.workers[id]? = some worker) {place : Nat} (apart : place ≠ id)
    (there : pool.workers[place]? = some other) (waking : other.phase.isWaking = true) :
    ∃ later, later ∈ (after.enter id phase).workers ∧ later.phase.isWaking = true := by
  have shown := turn.phase_next found place
  rw [if_neg apart, there, Option.map_some] at shown
  rcases Option.map_eq_some_iff.mp shown with ⟨later, stays, same⟩
  refine ⟨later, List.mem_of_getElem? stays, ?_⟩
  rw [same]
  split
  · rw [isWaking_awaken, waking]
  · exact waking

/-- What the turning worker holds is part of what is in use. -/
theorem heldBytes_le (watched : Watched ceiling pool) {worker : Worker}
    (found : pool.workers[id]? = some worker) :
    worker.phase.heldBytes ≤ pool.budget.used.toNat := by
  rw [watched.used_eq]
  exact le_sum_of_mem (fun worker => worker.phase.heldBytes)
    (List.mem_of_getElem? found)

/-- A turn keeps the books: it adds to the bytes in use what its worker takes, and
takes away what its worker gives back. -/
theorem used_next (watched : Watched ceiling pool) {worker : Worker}
    {before phase : WorkerPhase} {after : Pool}
    (turn : Turn work pool id before after phase)
    (found : pool.workers[id]? = some worker) (leaves : worker.phase = before) :
    after.budget.used.toNat = (after.enter id phase).phaseTotal WorkerPhase.heldBytes ∧
      after.budget.used.toNat ≤ ceiling.toNat := by
  have exchanged := turn.phaseTotal_next found leaves WorkerPhase.heldBytes fun _ => rfl
  have used := watched.used_eq
  have bound := watched.used_le
  have part := watched.heldBytes_le found
  rw [leaves] at part
  cases turn with
  | reserve taken reserved total room =>
      rw [watched.ceiling_eq] at room
      simp only [WorkerPhase.heldBytes, Budget.withUsed_used] at exchanged ⊢
      omega
  | release taken handling =>
      have returned := Budget.release_used part
      simp only [WorkerPhase.heldBytes] at exchanged returned ⊢
      omega
  | read taken region answer phase arena there asked ends =>
      have same : phase.heldBytes = taken.block.length.toNat := by
        cases ends <;> rfl
      rw [same, WorkerPhase.heldBytes] at exchanged
      refine ⟨?_, bound⟩
      change pool.budget.used.toNat = _
      omega
  | _ =>
      refine ⟨?_, bound⟩
      change pool.budget.used.toNat = _
      simp only [WorkerPhase.heldBytes] at exchanged
      omega

/-- Who sleeps after a turn slept before, with nobody woken, or falls asleep now. -/
theorem asleep_next {worker other : Worker} {before phase : WorkerPhase} {after : Pool}
    {taken : TakenBlock} (turn : Turn work pool id before after phase)
    (found : pool.workers[id]? = some worker)
    (member : other ∈ (after.enter id phase).workers)
    (asleep : other.phase = .asleep taken) :
    (before = .reserving taken ∧ after = pool ∧
      taken.block.length.toNat ≤ pool.budget.ceiling.toNat ∧
      pool.budget.ceiling.toNat < pool.budget.used.toNat + taken.block.length.toNat) ∨
    (before.isWaking = false ∧
      ∃ old, old ∈ pool.workers ∧ old.phase = .asleep taken) := by
  rcases turn.mem_next found member with entered | ⟨place, old, -, there, same⟩
  · left
    rw [asleep] at entered
    subst entered
    cases turn with
    | sleep taken fits full => exact ⟨rfl, rfl, fits, full⟩
    | read reading region answer phase arena there asked ends => cases ends
  · right
    rw [asleep] at same
    cases wakes : before.isWaking with
    | true =>
        rw [wakes, if_pos rfl] at same
        exact absurd same.symm (awaken_ne_asleep _ _)
    | false =>
        rw [wakes] at same
        exact ⟨rfl, old, List.mem_of_getElem? there, same.symm⟩

/-- No turn makes room unseen: a turn that lowers the bytes in use leaves its
worker waking. -/
theorem used_le_or_waking {before phase : WorkerPhase} {after : Pool}
    (turn : Turn work pool id before after phase) :
    pool.budget.used.toNat ≤ after.budget.used.toNat ∨ phase.isWaking = true := by
  cases turn with
  | reserve taken reserved total room =>
      left
      rw [Budget.withUsed_used]
      omega
  | release taken handling => exact Or.inr rfl
  | _ => exact Or.inl (Nat.le_refl _)

theorem step (watched : Watched ceiling pool) (stepped : pool.step work id = some next) :
    Watched ceiling next := by
  rcases turn_of_step stepped with ⟨worker, before, after, phase, found, leaves, turn, rfl⟩
  have books := watched.used_next turn found leaves
  have place := turn.phase_next found id
  have ceiling_after : after.budget.ceiling = ceiling := by
    cases turn <;> exact watched.ceiling_eq
  refine ⟨ceiling_after, books.1, books.2, ?_, ?_⟩
  · intro other taken member asleep
    rcases asleep_next turn found member asleep with ⟨-, -, fits, -⟩ | ⟨-, old, earlier, slept⟩
    · rw [<- watched.ceiling_eq]
      exact fits
    · exact watched.asleep_le old taken earlier slept
  · intro other taken member asleep fits
    change after.budget.used.toNat + taken.block.length.toNat ≤ ceiling.toNat at fits
    rcases asleep_next turn found member asleep with ⟨-, same, -, full⟩ | ⟨calm, old, earlier, slept⟩
    · rw [watched.ceiling_eq] at full
      rw [same] at fits
      omega
    · rcases used_le_or_waking turn with grows | waking
      · -- The request fitted before the turn as well, so somebody was waking.
        rcases watched.asleep_full old taken earlier slept (by omega) with ⟨waker, among, waking⟩
        rcases List.getElem?_of_mem among with ⟨spot, there⟩
        by_cases same : spot = id
        · rw [same, found, Option.some.injEq] at there
          rw [<- there, leaves, calm] at waking
          contradiction
        · exact waking_stays turn found same there waking
      · rw [if_pos rfl] at place
        rcases Option.map_eq_some_iff.mp place with ⟨later, stays, same⟩
        exact ⟨later, List.mem_of_getElem? stays, same ▸ waking⟩

theorem follow {schedule : List Nat} (watched : Watched ceiling pool)
    (followed : pool.follow work schedule = some next) : Watched ceiling next :=
  follow_induction (Watched ceiling) (fun _ _ _ kept stepped => kept.step stepped)
    watched followed

/-- The bytes in use are those of the workers other than one that waits. -/
theorem used_eq_others (watched : Watched ceiling pool) {worker : Worker}
    (found : pool.workers[id]? = some worker) (idle : worker.phase.heldBytes = 0) :
    pool.budget.used.toNat =
      ((pool.workers.eraseIdx id).map fun other => other.phase.heldBytes).sum := by
  have split := sum_map_eraseIdx (fun other => other.phase.heldBytes) found
  rw [watched.used_eq]
  unfold phaseTotal
  omega

/-- What the others hold leaves room for one more request, where all of them together fit the
address space. -/
theorem used_add_lt (watched : Watched ceiling pool) {longest length : Nat} {worker : Worker}
    (small : forall other, other ∈ pool.workers -> other.phase.heldBytes ≤ longest)
    (room : pool.workers.length * longest < UInt64.size)
    (found : pool.workers[id]? = some worker) (idle : worker.phase.heldBytes = 0)
    (fits : length ≤ longest) : pool.budget.used.toNat + length < UInt64.size := by
  have inside := (List.getElem?_eq_some_iff.mp found).1
  have held := watched.used_eq_others found idle
  have others : ((pool.workers.eraseIdx id).map fun other => other.phase.heldBytes).sum ≤
      (pool.workers.eraseIdx id).length * longest :=
    sum_le_length_mul fun other member => small other (List.mem_of_mem_eraseIdx member)
  rw [List.length_eraseIdx_of_lt inside] at others
  have count : (pool.workers.length - 1) * longest + longest =
      pool.workers.length * longest := by
    rw [<- Nat.succ_mul, Nat.succ_eq_add_one, Nat.sub_add_cancel (by omega)]
  omega

/-- Where a request does not fit, somebody else holds bytes. -/
theorem exists_holder (watched : Watched ceiling pool) {worker : Worker} {taken : TakenBlock}
    (found : pool.workers[id]? = some worker) (asleep : worker.phase = .asleep taken)
    (calm : forall other, other ∈ pool.workers -> other.phase.isWaking = false) :
    ∃ place other, place ≠ id ∧ pool.workers[place]? = some other ∧
      other.phase.isAsleep = false ∧ 0 < other.phase.heldBytes := by
  have member := List.mem_of_getElem? found
  have fits := watched.asleep_le worker taken member asleep
  have used : 0 < pool.budget.used.toNat := by
    apply Nat.pos_of_ne_zero
    intro unused
    rcases watched.asleep_full worker taken member asleep (by omega) with
      ⟨waker, among, waking⟩
    rw [calm waker among] at waking
    contradiction
  rw [watched.used_eq] at used
  rcases exists_pos_of_sum_pos used with ⟨other, among, holds⟩
  rcases List.getElem?_of_mem among with ⟨place, there⟩
  refine ⟨place, other, ?_, there, (able_of_heldBytes holds).2, holds⟩
  intro same
  rw [same, found, Option.some.injEq] at there
  rw [<- there, asleep] at holds
  exact absurd holds (Nat.lt_irrefl 0)

/-- As long as a worker sleeps, some worker neither sleeps nor is done. -/
theorem exists_able_of_asleep (watched : Watched ceiling pool) {worker : Worker}
    (member : worker ∈ pool.workers) (asleep : worker.phase.isAsleep = true) :
    ∃ other, other ∈ pool.workers ∧ other.phase.isDone = false ∧
      other.phase.isAsleep = false := by
  by_cases calm : forall other, other ∈ pool.workers -> other.phase.isWaking = false
  · rcases List.getElem?_of_mem member with ⟨id, found⟩
    cases phase : worker.phase with
    | asleep taken =>
        rcases watched.exists_holder found phase calm with ⟨place, other, -, there, -, holds⟩
        exact ⟨other, List.mem_of_getElem? there, able_of_heldBytes holds⟩
    | _ => simp [WorkerPhase.isAsleep, phase] at asleep
  · simp only [Classical.not_forall, Bool.not_eq_false] at calm
    rcases calm with ⟨waker, among, waking⟩
    exact ⟨waker, among, able_of_isWaking waking⟩

/-- A pool with a worker that is not done has a step. -/
theorem isDone_or_step (watched : Watched ceiling pool) :
    pool.isDone = true ∨ ∃ id next, pool.step work id = some next := by
  by_cases able : ∃ worker, worker ∈ pool.workers ∧ worker.phase.isDone = false ∧
      worker.phase.isAsleep = false
  · rcases able with ⟨worker, member, free⟩
    rcases List.getElem?_of_mem member with ⟨id, found⟩
    rcases exists_turn work found free with ⟨after, phase, -, stepped⟩
    exact Or.inr ⟨id, _, stepped⟩
  · refine Or.inl (List.all_eq_true.mpr fun worker member => ?_)
    by_cases asleep : worker.phase.isAsleep = true
    · exact absurd (watched.exists_able_of_asleep member asleep) able
    · by_cases done : worker.phase.isDone = true
      · exact done
      · exact absurd ⟨worker, member, Bool.eq_false_iff.mpr done,
          Bool.eq_false_iff.mpr asleep⟩ able

end Watched

/-- The pool never stalls.  In every state that a schedule can reach, a worker
that waits holds none of the bytes in use; a worker whose request would fit sleeps
only while a wake-up is pending; if none is pending, another worker that is awake
holds bytes; so the workers that are not done are never all asleep, and one of
them has a step. -/
theorem pool_never_stalls {work : PoolWork} {workers ceiling : Word} {trace : Trace}
    {first pool : Pool}
    (started : Pool.start work workers { ceiling := ceiling } trace = .ok first)
    (reached : first.Leads work pool) :
    (forall (id : Nat) (worker : Worker) (taken : TakenBlock),
      pool.workers[id]? = some worker ->
      (worker.phase = .asleep taken ∨ worker.phase = .reserving taken) ->
      pool.budget.used.toNat =
        ((pool.workers.eraseIdx id).map fun other => other.phase.heldBytes).sum) ∧
    (forall (worker : Worker) (taken : TakenBlock), worker ∈ pool.workers ->
      worker.phase = .asleep taken ->
      pool.budget.used.toNat + taken.block.length.toNat ≤ ceiling.toNat ->
      ∃ other, other ∈ pool.workers ∧ other.phase.isWaking = true) ∧
    (forall (id : Nat) (worker : Worker) (taken : TakenBlock),
      pool.workers[id]? = some worker -> worker.phase = .asleep taken ->
      (forall other, other ∈ pool.workers -> other.phase.isWaking = false) ->
      ∃ place other, place ≠ id ∧ pool.workers[place]? = some other ∧
        other.phase.isAsleep = false ∧ 0 < other.phase.heldBytes) ∧
    ¬ ((∃ worker, worker ∈ pool.workers ∧ worker.phase.isDone = false) ∧
      forall worker, worker ∈ pool.workers -> worker.phase.isDone = false ->
        worker.phase.isAsleep = true) ∧
    (pool.isDone = true ∨ ∃ id next, pool.step work id = some next) := by
  rcases reached with ⟨schedule, followed⟩
  have watched := (Watched.start rfl started).follow followed
  refine ⟨?_, watched.asleep_full, ?_, ?_, watched.isDone_or_step⟩
  · intro id worker taken found waits
    apply watched.used_eq_others found
    rcases waits with asleep | reserving
    · rw [asleep]
      rfl
    · rw [reserving]
      rfl
  · intro id worker taken found asleep calm
    exact watched.exists_holder found asleep calm
  · rintro ⟨⟨worker, member, unfinished⟩, sleepers⟩
    have asleep := sleepers worker member unfinished
    rcases watched.exists_able_of_asleep member asleep with ⟨other, among, busy, awake⟩
    rw [sleepers other among busy] at awake
    contradiction

/-- Two blocks of three bytes each, read as zeros. -/
def pairWork : PoolWork where
  reader :=
    { target :=
        { pid := 1
          query := fun _ => .ok none
          read := fun _ _ length => .ok (List.replicate length 0)
          modulePath := fun _ => none
          imagePath := none }
      tellsFailures := false
      maxThreads := 2
      hardwareThreads := 2 }
  pattern := ⟨[0], by decide⟩
  regions := [Region.gap ⟨0⟩ 6]
  blocks := [⟨⟨0⟩, 3, 0⟩, ⟨⟨3⟩, 3, 0⟩]

/-- Under a ceiling of four bytes the second of two workers has to sleep, and the
first goes on. -/
theorem pool_never_stalls_of_pair :
    ∃ first pool, Pool.start pairWork 2 { ceiling := 4 } {} = .ok first ∧
      first.follow pairWork [0, 0, 0, 1, 1, 1] = some pool ∧
      (pool.workers.map fun worker => worker.phase.isAsleep) = [false, true] ∧
      ∃ id next, pool.step pairWork id = some next := by
  refine ⟨_, _, rfl, rfl, rfl, ?_⟩
  have stalls := @pool_never_stalls pairWork 2 4 {} _ _ rfl ⟨[0, 0, 0, 1, 1, 1], rfl⟩
  rcases stalls with ⟨-, -, -, -, done | steps⟩
  · contradiction
  · exact steps

end Pool
end MemoryProbe
