import MemoryProbe.Proofs.Pool.Turn

namespace MemoryProbe
namespace Pool

/-!
Every schedule comes to an end.  The potential of a pool counts the steps that its
workers can still take: for each block that was not taken one round of a worker,
and for each worker the rest of its round.  A wake-up sends every other worker
back by one phase, which the phase of the waking worker pays for.
-/

/-- How much of a round is left in a phase, in a pool of so many workers. -/
def rank (workers : Nat) : WorkerPhase -> Nat
  | .finished => 0
  | .faulted => 0
  | .explaining _ => 1
  | .taking => 1
  | .stopping _ => 2
  | .ready => 2
  | .recording _ _ => 3
  | .waking _ _ => workers + 4
  | .releasing _ _ => workers + 5
  | .telling _ _ _ => workers + 6
  | .reading _ => workers + 7
  | .asleep _ => workers + 8
  | .reserving _ => workers + 9

/-- A bound on the steps that are left. -/
def potential (work : PoolWork) (pool : Pool) : Nat :=
  (pool.workers.length + 9) * (work.blocks.length - pool.cursor) +
    pool.phaseTotal (rank pool.workers.length)

variable {work : PoolWork} {pool next : Pool} {id : Nat}

theorem rank_awaken_le (workers : Nat) (phase : WorkerPhase) :
    rank workers phase.awaken ≤ rank workers phase + 1 := by
  cases phase with
  | asleep taken => exact Nat.le_refl _
  | _ => exact Nat.le_succ _

/-- A wake-up costs at most one step for each worker. -/
theorem phaseTotal_awaken_le (workers : Nat) (pool : Pool) :
    pool.awaken.phaseTotal (rank workers) ≤
      pool.phaseTotal (rank workers) + pool.workers.length := by
  unfold phaseTotal awaken
  rw [List.map_map]
  induction pool.workers with
  | nil => exact Nat.le_refl _
  | cons worker others ih =>
      have first := rank_awaken_le workers worker.phase
      simp only [List.map_cons, List.sum_cons, List.length_cons, Function.comp_apply]
      omega

theorem Turn.length_after {before phase : WorkerPhase} {after : Pool}
    (turn : Turn work pool id before after phase) :
    after.workers.length = pool.workers.length := by
  cases turn with
  | wake taken handling whole => exact List.length_map _
  | wakeFaulted taken => exact List.length_map _
  | recordHits taken hits =>
      unfold keep
      split
      · rfl
      · exact List.length_modify _ _ _
  | _ => rfl

theorem length_enter (pool : Pool) (id : Nat) (phase : WorkerPhase) :
    (pool.enter id phase).workers.length = pool.workers.length :=
  List.length_modify _ _ _

/-- Every step uses up some potential. -/
theorem potential_step (stepped : pool.step work id = some next) :
    next.potential work < pool.potential work := by
  rcases turn_of_step stepped with ⟨worker, before, after, phase, found, leaves, turn, rfl⟩
  rcases turn.worker_after found leaves with ⟨kept, place, same⟩
  have exchanged := phaseTotal_enter place (rank pool.workers.length) phase
  rw [same] at exchanged
  unfold potential
  rw [length_enter, turn.length_after]
  change (pool.workers.length + 9) * (work.blocks.length - after.cursor) + _ < _
  -- What is left of the blocks matters to the turns that take one; the other turns
  -- change the ranks alone.
  cases turn with
  | take block there =>
      have inside : pool.cursor < work.blocks.length :=
        (List.getElem?_eq_some_iff.mp there).1
      have rounds : work.blocks.length - pool.cursor =
          work.blocks.length - (pool.cursor + 1) + 1 := by omega
      change _ + _ = pool.phaseTotal _ + _ at exchanged
      change (pool.workers.length + 9) * (work.blocks.length - (pool.cursor + 1)) + _ < _
      rw [rounds, Nat.mul_add]
      simp only [rank] at exchanged
      omega
  | runOut beyond =>
      have fewer : (pool.workers.length + 9) * (work.blocks.length - (pool.cursor + 1)) ≤
          (pool.workers.length + 9) * (work.blocks.length - pool.cursor) :=
        Nat.mul_le_mul_left _ (by omega)
      change _ + _ = pool.phaseTotal _ + _ at exchanged
      change (pool.workers.length + 9) * (work.blocks.length - (pool.cursor + 1)) + _ < _
      simp only [rank] at exchanged
      omega
  | read taken region answer phase arena there asked ends =>
      have less : rank pool.workers.length phase + 1 ≤
          rank pool.workers.length (.reading taken) := by
        cases ends <;> simp only [rank] <;> omega
      change _ + _ = pool.phaseTotal _ + _ at exchanged
      change (pool.workers.length + 9) * (work.blocks.length - pool.cursor) + _ < _
      omega
  | wake taken handling whole =>
      have woken := phaseTotal_awaken_le pool.workers.length pool
      change (pool.workers.length + 9) * (work.blocks.length - pool.cursor) + _ < _
      simp only [rank] at exchanged
      omega
  | wakeFaulted taken =>
      have woken := phaseTotal_awaken_le pool.workers.length pool
      change (pool.workers.length + 9) * (work.blocks.length - pool.cursor) + _ < _
      simp only [rank] at exchanged
      omega
  | recordHits taken hits =>
      have unchanged := phaseTotal_keep found taken hits (rank pool.workers.length)
      rw [keep_eq] at unchanged
      rw [unchanged] at exchanged
      change (pool.workers.length + 9) * (work.blocks.length - pool.cursor) + _ < _
      simp only [rank] at exchanged
      omega
  | _ =>
      change _ + _ = pool.phaseTotal _ + _ at exchanged
      change (pool.workers.length + 9) * (work.blocks.length - pool.cursor) + _ < _
      simp only [rank] at exchanged
      omega

/-- Workers come and go only in their phases. -/
theorem step_length (stepped : pool.step work id = some next) :
    next.workers.length = pool.workers.length := by
  rcases turn_of_step stepped with ⟨worker, before, after, phase, -, -, turn, rfl⟩
  rw [length_enter, turn.length_after]

theorem follow_length {schedule : List Nat}
    (followed : pool.follow work schedule = some next) :
    next.workers.length = pool.workers.length :=
  follow_induction (fun later => later.workers.length = pool.workers.length)
    (fun _ _ _ same stepped => (step_length stepped).trans same) rfl followed

/-- The steps of a schedule come out of the potential. -/
theorem length_add_potential_le {schedule : List Nat}
    (followed : pool.follow work schedule = some next) :
    schedule.length + next.potential work ≤ pool.potential work :=
  length_add_le_of_foldlM (potential work) (fun _ _ _ => potential_step) followed

end Pool
end MemoryProbe
