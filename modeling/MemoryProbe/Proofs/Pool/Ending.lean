import MemoryProbe.Search.Pool

namespace MemoryProbe

/-!
The end of a pool.  The workers are joined in their order, and a fault is taken over from the worker
that is joined; but joining ends with the first fault, and the pool as a whole faults if another one
is left behind it.  So the answer depends on how many workers met a fault: none, one or several.
-/

namespace Pool

/-- The numbers of the workers that met a fault, counted from a number on. -/
def faultedFrom (id : Nat) : List Worker -> List Nat
  | [] => []
  | worker :: rest =>
    if worker.phase = .faulted then id :: faultedFrom (id + 1) rest else faultedFrom (id + 1) rest

/-- Counting from one number later, the first worker is a place further back. -/
theorem filter_range'_eq_faultedFrom (workers : List Worker) (id : Nat) :
    (List.range' id workers.length).filter (fun place =>
      (workers[place - id]?).any fun worker => worker.phase == .faulted) =
        faultedFrom id workers := by
  induction workers generalizing id with
  | nil => rfl
  | cons worker rest ih =>
      have later : (List.range' (id + 1) rest.length).filter (fun place =>
          ((worker :: rest)[place - id]?).any fun worker => worker.phase == .faulted) =
            faultedFrom (id + 1) rest := by
        rw [<- ih]
        refine List.filter_congr fun place member => ?_
        have behind := (List.mem_range'_1.mp member).1
        rw [show place - id = place - (id + 1) + 1 by omega, List.getElem?_cons_succ]
      rw [List.length_cons, List.range'_succ, List.filter_cons, later, Nat.sub_self,
        List.getElem?_cons_zero, Option.any_some, faultedFrom]
      by_cases fault : worker.phase = .faulted <;> simp [fault]

theorem faultedWorkers_eq (pool : Pool) : pool.faultedWorkers = faultedFrom 0 pool.workers := by
  rw [<- filter_range'_eq_faultedFrom, <- List.range_eq_range']
  rfl

/-- Nobody among some workers met a fault exactly if there is no number of one. -/
theorem any_eq_not_isEmpty (id : Nat) (workers : List Worker) :
    (workers.any fun worker => worker.phase == .faulted) =
      !(faultedFrom id workers).isEmpty := by
  induction workers generalizing id with
  | nil => rfl
  | cons worker rest ih =>
      rw [List.any_cons, faultedFrom]
      by_cases fault : worker.phase = .faulted
      · simp [fault]
      · rw [if_neg fault, <- ih (id + 1)]
        simp [fault]

/-- Joining ends with the first fault, and takes notice of a second one without its number. -/
theorem joinFrom_eq (id : Nat) (workers : List Worker) :
    joinFrom id workers =
      match faultedFrom id workers with
      | [] => none
      | first :: rest => some (first, !rest.isEmpty) := by
  induction workers generalizing id with
  | nil => rfl
  | cons worker rest ih =>
      rw [joinFrom, faultedFrom]
      by_cases fault : worker.phase = .faulted
      · rw [if_pos fault, if_pos fault, any_eq_not_isEmpty (id + 1)]
      · rw [if_neg fault, if_neg fault, ih]

/-- What a pool answers, by the workers that met a fault. -/
theorem answer_eq_of_faults (work : PoolWork) (pool : Pool) :
    pool.answer work =
      match pool.faultedWorkers with
      | [] =>
        match pool.cause with
        | some cause => .error (.failure cause)
        | none => .ok ⟨hits work pool, pool.workers.length, pool.failedBlocks⟩
      | [id] => .error (.failure (.workerPanicked id))
      | _ :: _ :: _ => .error (.fault .severalWorkers) := by
  unfold answer joined
  rw [joinFrom_eq, faultedWorkers_eq]
  rcases faultedFrom 0 pool.workers with none | ⟨first, _ | ⟨second, rest⟩⟩ <;> rfl

end Pool
end MemoryProbe
