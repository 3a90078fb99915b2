import MemoryProbe.Proofs.Pool.Outcome

namespace MemoryProbe
namespace Pool

/-!
The sign to give up travels at its own pace.  A worker that looks for the sign may
miss it although it was given, and goes on as if it was not.  Schedules of a pool
are therefore widened to those that say of each step whether its worker knows of
the sign; the plain schedules are those in which every worker always knows.
-/

/-- The next step of a worker that sees the sign to give up only if it knows of it. -/
def stepKnowing (work : PoolWork) (knows : Bool) (pool : Pool) (id : Nat) : Option Pool :=
  (step work { pool with givesUp := pool.givesUp && knows } id).map fun next =>
    { next with givesUp := pool.givesUp || next.givesUp }

/-- The steps of a schedule in which workers may miss the sign; nothing if it names
a worker that has none. -/
def drift (work : PoolWork) (pool : Pool) (schedule : List (Nat × Bool)) : Option Pool :=
  schedule.foldlM (fun pool turn => stepKnowing work turn.2 pool turn.1) pool

variable {work : PoolWork} {pool next : Pool} {id : Nat} {knows : Bool} {ceiling : Word}

/-- A sign once given is not taken back. -/
theorem Turn.givesUp_stays {before phase : WorkerPhase} {after : Pool}
    (turn : Turn work pool id before after phase) (given : pool.givesUp = true) :
    after.givesUp = true := by
  cases turn with
  | stop cause => rfl
  | _ => exact given

/-- A worker that knows of the sign takes a plain step. -/
theorem stepKnowing_true : stepKnowing work true pool id = pool.step work id := by
  unfold stepKnowing
  rw [Bool.and_true]
  cases stepped : pool.step work id with
  | none => rfl
  | some next =>
      rcases turn_of_step stepped with ⟨worker, before, after, phase, -, -, turn, rfl⟩
      rw [Option.map_some, Option.some.injEq]
      cases given : pool.givesUp with
      | false => rfl
      | true =>
          have stays := turn.givesUp_stays given
          change { after.enter id phase with givesUp := true } = after.enter id phase
          rw [<- stays]
          rfl

/-- A plain schedule is one in which every worker knows of the sign. -/
theorem drift_knowing (schedule : List Nat) :
    pool.drift work (schedule.map fun id => (id, true)) = pool.follow work schedule := by
  unfold drift follow
  rw [List.foldlM_map]
  simp only [stepKnowing_true]

/-- A step of a worker that may miss the sign is a step of the pool without it. -/
theorem exists_step_of_stepKnowing (stepped : stepKnowing work knows pool id = some next) :
    ∃ later, step work { pool with givesUp := pool.givesUp && knows } id = some later ∧
      next = { later with givesUp := pool.givesUp || later.givesUp } := by
  rcases Option.map_eq_some_iff.mp stepped with ⟨later, moved, same⟩
  exact ⟨later, moved, same.symm⟩

/-- What every step keeps, every schedule keeps. -/
theorem drift_induction (holds : Pool -> Prop)
    (keeps : forall pool id knows next, holds pool ->
      stepKnowing work knows pool id = some next -> holds next)
    {schedule : List (Nat × Bool)} {first last : Pool} (begins : holds first)
    (drifted : first.drift work schedule = some last) : holds last :=
  foldlM_induction holds (fun pool turn next => keeps pool turn.1 turn.2 next) begins drifted

/-- Missing the sign does not make a pool go on for longer. -/
theorem length_add_potential_le_of_drift {schedule : List (Nat × Bool)}
    (drifted : pool.drift work schedule = some next) :
    schedule.length + next.potential work ≤ pool.potential work := by
  refine length_add_le_of_foldlM (potential work) (fun pool turn next moved => ?_) drifted
  rcases exists_step_of_stepKnowing moved with ⟨later, stepped, rfl⟩
  have less := potential_step stepped
  exact less

theorem drift_length {schedule : List (Nat × Bool)}
    (drifted : pool.drift work schedule = some next) :
    next.workers.length = pool.workers.length := by
  refine drift_induction (fun later => later.workers.length = pool.workers.length)
    (fun middle id knows later same moved => ?_) rfl drifted
  rcases exists_step_of_stepKnowing moved with ⟨later, stepped, rfl⟩
  exact (step_length stepped).trans same

namespace Watched

/-- The accounts of the budget have nothing to do with the sign. -/
theorem withSign (watched : Watched ceiling pool) (given : Bool) :
    Watched ceiling { pool with givesUp := given } :=
  ⟨watched.ceiling_eq, watched.used_eq, watched.used_le, watched.asleep_le,
    watched.asleep_full⟩

theorem stepKnowing (watched : Watched ceiling pool)
    (moved : pool.stepKnowing work knows id = some next) : Watched ceiling next := by
  rcases exists_step_of_stepKnowing moved with ⟨later, stepped, rfl⟩
  exact ((watched.withSign _).step stepped).withSign _

end Watched

end Pool
end MemoryProbe
