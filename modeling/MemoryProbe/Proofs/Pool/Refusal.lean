import MemoryProbe.Proofs.Pool.Signal

namespace MemoryProbe

/-!
Blocks that the budget can never hold.  Whoever takes one is refused, gives the sign
and leaves the cause; the sign goes up before the cause is there, and the others see
it at a time of their own.  A refusal is never lost on the way, so a pool either
leaves a cause behind or has read every block.
-/

namespace PoolWork

/-- Whether a cause is the refusal of a block that a ceiling does not admit. -/
def Exceeds (work : PoolWork) (ceiling : Word) (cause : ScanError) : Prop :=
  ∃ block, block ∈ work.blocks ∧ ceiling < block.length ∧
    cause = .budgetExceeded block.length ceiling

/-- What a phase says about its block and about the ceiling is so. -/
def Claims (work : PoolWork) (ceiling : Word) : WorkerPhase -> Prop
  | .reserving taken => work.blocks[taken.index]? = some taken.block
  | .asleep taken => work.blocks[taken.index]? = some taken.block
  | .reading taken =>
    work.blocks[taken.index]? = some taken.block ∧ taken.block.length ≤ ceiling
  | .stopping cause => work.Exceeds ceiling cause
  | .explaining cause => work.Exceeds ceiling cause
  | _ => True

theorem claims_awaken {work : PoolWork} {ceiling : Word} {phase : WorkerPhase}
    (claims : work.Claims ceiling phase) : work.Claims ceiling phase.awaken := by
  cases phase <;> exact claims

end PoolWork

namespace Pool

/-- A worker was refused, and is about to leave the cause or has left it. -/
def Refused (pool : Pool) : Prop :=
  0 < pool.phaseTotal WorkerPhase.refuses ∨ pool.cause ≠ none

/-- The numbers of the blocks, those who wait for them and the refusals, as far as
they fit together. -/
structure Refusing (work : PoolWork) (ceiling : Word) (pool : Pool) : Prop where
  claims : forall worker, worker ∈ pool.workers -> work.Claims ceiling worker.phase
  cause_exceeds : forall cause, pool.cause = some cause -> work.Exceeds ceiling cause
  /-- There is no sign without a refusal. -/
  sign : pool.givesUp = true -> pool.Refused
  /-- A worker ends only behind the last block or behind a refusal. -/
  behind : forall worker, worker ∈ pool.workers -> worker.phase = .finished ->
    work.blocks.length ≤ pool.cursor ∨ pool.Refused
  /-- What was read fits the ceiling. -/
  fits : forall index, index ∈ pool.readBlocks ->
    ∃ block, work.blocks[index]? = some block ∧ block.length ≤ ceiling
  taken_le : forall index,
    pool.readBlocks.count index + pool.phaseTotal (WorkerPhase.awaits index) ≤
      if index < pool.cursor ∧ index < work.blocks.length then 1 else 0
  /-- As long as no cause is left, a number that was taken is with somebody. -/
  taken_ge : pool.cause = none -> forall index,
    (if index < pool.cursor ∧ index < work.blocks.length then 1 else 0) ≤
      pool.readBlocks.count index + pool.phaseTotal (WorkerPhase.awaits index) +
        pool.phaseTotal WorkerPhase.trouble + pool.phaseTotal WorkerPhase.refuses

variable {work : PoolWork} {pool next : Pool} {id : Nat} {knows : Bool} {ceiling : Word}

/-- A refusal is passed on until its cause is left, and a cause stays. -/
theorem Turn.refused_stays {worker : Worker} {before phase : WorkerPhase} {after : Pool}
    (turn : Turn work pool id before after phase)
    (found : pool.workers[id]? = some worker) (leaves : worker.phase = before)
    (refused : pool.Refused) : (after.enter id phase).Refused := by
  have exchanged := turn.phaseTotal_next found leaves WorkerPhase.refuses fun _ => rfl
  rcases refused with pending | explained
  · cases turn with
    | explain cause =>
        right
        change (pool.cause <|> some cause) ≠ none
        cases pool.cause <;> simp
    | read taken region answer phase arena there asked ends =>
        left
        have calm : phase.refuses = 0 := by
          cases ends <;> rfl
        rw [calm] at exchanged
        change _ + 0 = _ + 0 at exchanged
        omega
    | _ =>
        left
        simp only [WorkerPhase.refuses] at exchanged
        omega
  · right
    cases turn with
    | explain cause =>
        change (pool.cause <|> some cause) ≠ none
        cases pool.cause <;> simp
    | _ => exact explained

/-- A worker that was refused is a refusal. -/
theorem refused_of_mem {worker : Worker} (member : worker ∈ pool.workers)
    (refused : 0 < worker.phase.refuses) : pool.Refused := by
  left
  have part := le_sum_of_mem (fun worker => worker.phase.refuses) member
  unfold phaseTotal
  omega

namespace Refusing

variable {worker : Worker} {before phase : WorkerPhase} {after : Pool}

theorem start {workers : Word} {trace : Trace}
    (started : Pool.start work workers { ceiling := ceiling } trace = .ok pool) :
    Refusing work ceiling pool := by
  rcases exists_arena_of_start started with ⟨arena, -, rfl⟩
  have ready : forall worker, worker ∈ List.replicate workers.toNat ({} : Worker) ->
      worker.phase = .ready := fun worker member =>
    congrArg Worker.phase (List.eq_of_mem_replicate member)
  refine
    { claims := fun worker member => ?_
      cause_exceeds := fun cause left => nomatch left
      sign := fun given => absurd given Bool.false_ne_true
      behind := fun worker member ended => ?_
      fits := fun index member => absurd member List.not_mem_nil
      taken_le := fun index => ?_
      taken_ge := fun _ index => ?_ }
  · rw [ready worker member]
    trivial
  · rw [ready worker member] at ended
    contradiction
  · have idle : phaseTotal (WorkerPhase.awaits index)
        { workers := List.replicate workers.toNat {}
          arena := arena
          budget := { ceiling := ceiling }
          trace := trace } = 0 :=
      phaseTotal_eq_zero_iff.mpr fun worker member => by rw [ready worker member]; rfl
    rw [idle]
    exact Nat.zero_le _
  · rw [if_neg (fun both => absurd both.1 (Nat.not_lt_zero _))]
    exact Nat.zero_le _

theorem claims_next (refusing : Refusing work ceiling pool)
    (admits : pool.budget.ceiling = ceiling)
    (turn : Turn work pool id before after phase)
    (found : pool.workers[id]? = some worker) (leaves : worker.phase = before) :
    forall other, other ∈ (after.enter id phase).workers -> work.Claims ceiling other.phase := by
  have earlier : work.Claims ceiling before :=
    leaves ▸ refusing.claims worker (List.mem_of_getElem? found)
  have entered : work.Claims ceiling phase := by
    cases turn with
    | take block there => exact there
    | refuse taken wide =>
        rw [admits] at wide ⊢
        exact ⟨taken.block, List.mem_of_getElem? earlier, UInt64.lt_iff_toNat_lt.mpr wide, rfl⟩
    | sleep taken fits full => exact earlier
    | reserve taken used total room =>
        rw [admits] at room
        exact ⟨earlier, UInt64.le_iff_toNat_le.mpr (by omega)⟩
    | read taken region answer phase arena there asked ends => cases ends <;> trivial
    | stop cause => exact earlier
    | _ => trivial
  exact turn.forall_next found (work.Claims ceiling) (fun _ => PoolWork.claims_awaken)
    refusing.claims entered

theorem cause_next (refusing : Refusing work ceiling pool)
    (turn : Turn work pool id before after phase)
    (found : pool.workers[id]? = some worker) (leaves : worker.phase = before) :
    forall cause, after.cause = some cause -> work.Exceeds ceiling cause := by
  have earlier : work.Claims ceiling before :=
    leaves ▸ refusing.claims worker (List.mem_of_getElem? found)
  cases turn with
  | explain cause =>
      intro left same
      change (pool.cause <|> some cause) = some left at same
      cases first : pool.cause with
      | none =>
          rw [first] at same
          cases same
          exact earlier
      | some kept =>
          rw [first] at same
          exact refusing.cause_exceeds left (first.trans same)
  | _ => exact refusing.cause_exceeds

theorem sign_next (refusing : Refusing work ceiling pool)
    (turn : Turn work pool id before after phase)
    (found : pool.workers[id]? = some worker) (leaves : worker.phase = before)
    (given : after.givesUp = true) : (after.enter id phase).Refused := by
  have earlier : pool.Refused := by
    cases turn with
    | stop cause =>
        refine refused_of_mem (List.mem_of_getElem? found) ?_
        rw [leaves]
        exact Nat.one_pos
    | _ => exact refusing.sign given
  exact turn.refused_stays found leaves earlier

theorem behind_next (refusing : Refusing work ceiling pool)
    (turn : Turn work pool id before after phase)
    (found : pool.workers[id]? = some worker) (leaves : worker.phase = before) :
    forall other, other ∈ (after.enter id phase).workers -> other.phase = .finished ->
      work.blocks.length ≤ after.cursor ∨ (after.enter id phase).Refused := by
  have stays := turn.refused_stays found leaves
  have grows := Accounted.cursor_le turn
  intro other member done
  rcases turn.finished_next found member done with ended | ⟨old, earlier, ended⟩
  · subst ended
    cases turn with
    | quit given => exact Or.inr (stays (refusing.sign given))
    | runOut beyond =>
        have past := List.getElem?_eq_none_iff.mp beyond
        exact Or.inl (Nat.le_succ_of_le past)
    | read taken region answer phase arena there asked ends => cases ends
    | explain cause =>
        refine Or.inr (stays (refused_of_mem (List.mem_of_getElem? found) ?_))
        rw [leaves]
        exact Nat.one_pos
  · rcases refusing.behind old earlier ended with past | refused
    · exact Or.inl (Nat.le_trans past grows)
    · exact Or.inr (stays refused)

theorem fits_next (refusing : Refusing work ceiling pool)
    (turn : Turn work pool id before after phase)
    (found : pool.workers[id]? = some worker) (leaves : worker.phase = before) :
    forall index, index ∈ after.readBlocks ->
      ∃ block, work.blocks[index]? = some block ∧ block.length ≤ ceiling := by
  have earlier : work.Claims ceiling before :=
    leaves ▸ refusing.claims worker (List.mem_of_getElem? found)
  cases turn with
  | read taken region answer phase arena there asked ends =>
      intro index member
      rcases List.mem_append.mp member with old | new
      · exact refusing.fits index old
      · rw [List.mem_singleton.mp new]
        exact ⟨taken.block, earlier⟩
  | _ => exact refusing.fits

theorem step (refusing : Refusing work ceiling pool)
    (admits : pool.budget.ceiling = ceiling) (stepped : pool.step work id = some next) :
    Refusing work ceiling next := by
  rcases turn_of_step stepped with ⟨worker, before, after, phase, found, leaves, turn, rfl⟩
  have cause_after := refusing.cause_next turn found leaves
  have sign_after := refusing.sign_next turn found leaves
  have behind_after := refusing.behind_next turn found leaves
  have fits_after := refusing.fits_next turn found leaves
  refine
    { claims := refusing.claims_next admits turn found leaves
      cause_exceeds := cause_after
      sign := sign_after
      behind := behind_after
      fits := fits_after
      taken_le := fun index => ?_
      taken_ge := fun unexplained index => ?_ }
  · have exchanged := turn.phaseTotal_next found leaves (WorkerPhase.awaits index) fun _ => rfl
    have books := refusing.taken_le index
    have few := turn.taken_le index
    change after.readBlocks.count index + _ ≤
      if index < after.cursor ∧ index < work.blocks.length then 1 else 0
    omega
  · have silent : pool.cause = none ∧ forall cause, before ≠ .explaining cause := by
      cases turn with
      | explain cause =>
          change (pool.cause <|> some cause) = none at unexplained
          cases first : pool.cause <;> rw [first] at unexplained <;> contradiction
      | _ => exact ⟨unexplained, fun cause => by simp⟩
    have waiting := turn.phaseTotal_next found leaves (WorkerPhase.awaits index) fun _ => rfl
    have troubled := turn.phaseTotal_next found leaves WorkerPhase.trouble fun _ => rfl
    have refused := turn.phaseTotal_next found leaves WorkerPhase.refuses fun _ => rfl
    have books := refusing.taken_ge silent.1 index
    have many := turn.taken_ge silent.2 index
    change (if index < after.cursor ∧ index < work.blocks.length then 1 else 0) ≤
      after.readBlocks.count index + _ + _ + _
    omega

/-- The sign may be hidden, and it may be given where there is a refusal. -/
theorem withSign (refusing : Refusing work ceiling pool) (given : Bool)
    (right : given = true -> pool.Refused) :
    Refusing work ceiling { pool with givesUp := given } :=
  ⟨refusing.claims, refusing.cause_exceeds, right, refusing.behind, refusing.fits,
    refusing.taken_le, refusing.taken_ge⟩

theorem stepKnowing (refusing : Refusing work ceiling pool)
    (admits : pool.budget.ceiling = ceiling)
    (moved : pool.stepKnowing work knows id = some next) : Refusing work ceiling next := by
  rcases exists_step_of_stepKnowing moved with ⟨later, stepped, rfl⟩
  have hidden := refusing.withSign (pool.givesUp && knows) fun given =>
    refusing.sign (Bool.and_eq_true_iff.mp given).1
  have kept := hidden.step admits stepped
  refine kept.withSign _ fun given => ?_
  rcases Bool.or_eq_true_iff.mp given with before | now
  · rcases turn_of_step stepped with ⟨worker, _, after, phase, found, leaves, turn, rfl⟩
    exact turn.refused_stays found leaves (refusing.sign before)
  · exact kept.sign now

section Finished

variable (refusing : Refusing work ceiling pool)
  (finished : forall worker, worker ∈ pool.workers -> worker.phase = .finished)

include refusing finished

/-- Where no cause was left, every block was read. -/
theorem readBlocks_perm (manned : pool.workers = [] -> work.blocks = [])
    (unexplained : pool.cause = none) :
    pool.readBlocks.Perm (List.range work.blocks.length) := by
  have calm : forall weigh : WorkerPhase -> Nat, weigh .finished = 0 ->
      pool.phaseTotal weigh = 0 := fun _ idle => phaseTotal_eq_zero_of_finished finished idle
  have admitted : ¬ pool.Refused := by
    rintro (pending | explained)
    · rw [calm _ rfl] at pending
      exact absurd pending (Nat.lt_irrefl 0)
    · exact explained unexplained
  have past : work.blocks.length ≤ pool.cursor := by
    cases crew : pool.workers with
    | nil =>
        rw [manned crew]
        exact Nat.zero_le _
    | cons worker others =>
        have member : worker ∈ pool.workers := crew ▸ List.mem_cons_self
        exact (refusing.behind worker member (finished worker member)).resolve_right admitted
  refine List.perm_iff_count.mpr fun index => ?_
  have few := refusing.taken_le index
  have many := refusing.taken_ge unexplained index
  rw [calm _ rfl] at few
  rw [calm (WorkerPhase.awaits index) rfl, calm WorkerPhase.trouble rfl,
    calm WorkerPhase.refuses rfl] at many
  rw [List.count_range]
  by_cases inside : index < work.blocks.length
  · rw [if_pos ⟨by omega, inside⟩] at few many
    rw [if_pos inside]
    omega
  · rw [if_neg fun both => inside both.2] at few many
    rw [if_neg inside]
    omega

/-- A cause is left exactly if the ceiling does not admit some block. -/
theorem cause_ne_none_iff (manned : pool.workers = [] -> work.blocks = []) :
    pool.cause ≠ none <-> ∃ block, block ∈ work.blocks ∧ ceiling < block.length := by
  constructor
  · intro explained
    rcases Option.ne_none_iff_exists'.mp explained with ⟨cause, left⟩
    rcases refusing.cause_exceeds cause left with ⟨block, member, wide, -⟩
    exact ⟨block, member, wide⟩
  · rintro ⟨block, member, wide⟩ unexplained
    rcases List.getElem?_of_mem member with ⟨index, found⟩
    have inside := (List.getElem?_eq_some_iff.mp found).1
    have read : index ∈ pool.readBlocks :=
      (refusing.readBlocks_perm finished manned unexplained).mem_iff.mpr
        (List.mem_range.mpr inside)
    rcases refusing.fits index read with ⟨same, there, fits⟩
    rw [found, Option.some.injEq] at there
    subst same
    exact absurd wide (UInt64.not_lt.mpr fits)

end Finished

end Refusing

/-- There is one list of matches for each block. -/
theorem hits_length (work : PoolWork) (pool : Pool) :
    (pool.hits work).length = work.blocks.length := by
  have kept : forall (entries : List (Nat × List Address)) (hits : List (List Address)),
      (entries.foldl (fun hits entry => hits.set entry.1 entry.2) hits).length =
        hits.length := by
    intro entries
    induction entries with
    | nil => exact fun _ => rfl
    | cons entry rest ih => exact fun hits => (ih _).trans (List.length_set ..)
  unfold hits
  rw [kept, List.length_replicate]

/-- The books of a pool that began with an unused budget, behind any schedule. -/
theorem refusing_of_drift {workers : Word} {trace : Trace} {schedule : List (Nat × Bool)}
    {first last : Pool}
    (started : Pool.start work workers { ceiling := ceiling } trace = .ok first)
    (drifted : first.drift work schedule = some last) :
    Watched ceiling last ∧ Refusing work ceiling last := by
  refine drift_induction (fun pool => Watched ceiling pool ∧ Refusing work ceiling pool)
    ?_ ⟨Watched.start rfl started, Refusing.start started⟩ drifted
  rintro pool id knows next ⟨watched, refusing⟩ moved
  exact ⟨watched.stepKnowing moved, refusing.stepKnowing watched.ceiling_eq moved⟩

/-- A pool in which nobody was refused and nobody is about to be. -/
structure Unrefused (pool : Pool) : Prop where
  noSign : pool.givesUp = false
  noCause : pool.cause = none
  calm : forall worker, worker ∈ pool.workers -> forall cause,
    worker.phase ≠ .stopping cause ∧ worker.phase ≠ .explaining cause
  /-- Whoever reserves bytes is not refused. -/
  admits : forall worker taken, worker ∈ pool.workers -> worker.phase = .reserving taken ->
    forall cause, pool.budget.acquire taken.block.length ≠ .error (.failure cause)

theorem Unrefused.not_refused (unrefused : pool.Unrefused) : ¬ pool.Refused := by
  rintro (pending | explained)
  · rcases exists_pos_of_sum_pos pending with ⟨worker, member, refused⟩
    have calm := unrefused.calm worker member
    cases phase : worker.phase with
    | stopping cause => exact (calm cause).1 phase
    | explaining cause => exact (calm cause).2 phase
    | _ =>
        rw [phase] at refused
        exact Nat.lt_irrefl 0 refused
  · exact explained unrefused.noCause

section Fits

variable (fits : forall block, block ∈ work.blocks -> block.length ≤ ceiling)

include fits

theorem Refusing.unrefused (refusing : Refusing work ceiling pool)
    (watched : Watched ceiling pool) : pool.Unrefused := by
  have none : forall cause, ¬work.Exceeds ceiling cause := by
    rintro cause ⟨block, member, wide, -⟩
    exact absurd wide (UInt64.not_lt.mpr (fits block member))
  have calm : forall worker, worker ∈ pool.workers -> forall cause,
      worker.phase ≠ .stopping cause ∧ worker.phase ≠ .explaining cause := by
    intro worker member cause
    have claims := refusing.claims worker member
    constructor
    · intro stops
      rw [stops] at claims
      exact none cause claims
    · intro explains
      rw [explains] at claims
      exact none cause claims
  have noCause : pool.cause = Option.none := by
    cases left : pool.cause with
    | none => rfl
    | some cause => exact absurd (refusing.cause_exceeds cause left) (none cause)
  have idle : pool.phaseTotal WorkerPhase.refuses = 0 := by
    refine phaseTotal_eq_zero_iff.mpr fun worker member => ?_
    have still := calm worker member
    cases phase : worker.phase with
    | stopping cause => exact absurd phase (still cause).1
    | explaining cause => exact absurd phase (still cause).2
    | _ => rfl
  refine ⟨?_, noCause, calm, fun worker taken member reserves => ?_⟩
  · cases given : pool.givesUp with
    | false => rfl
    | true =>
        rcases refusing.sign given with pending | explained
        · rw [idle] at pending
          exact absurd pending (Nat.lt_irrefl 0)
        · exact absurd noCause explained
  · have claims := refusing.claims worker member
    rw [reserves] at claims
    refine Budget.acquire_ne_failure ?_
    rw [watched.ceiling_eq]
    exact fits taken.block (List.mem_of_getElem? claims)

/-- Workers for blocks that fit the ceiling are never refused, whatever the schedule. -/
theorem unrefused_of_drift {workers : Word} {trace : Trace} {schedule : List (Nat × Bool)}
    {first last : Pool}
    (started : Pool.start work workers { ceiling := ceiling } trace = .ok first)
    (drifted : first.drift work schedule = some last) : last.Unrefused := by
  rcases refusing_of_drift started drifted with ⟨watched, refusing⟩
  exact refusing.unrefused fits watched

end Fits

/-- A pool refuses a block that its budget can never hold, and nothing else stops it.
Every schedule ends, however late the workers see the sign to give up; no block is
read twice, and none that exceeds the ceiling is read at all.  Once the workers are
done, and none met a fault, all of them have finished and no byte is in use; the
answer is the refusal of some block that exceeds the ceiling if there is one, and
otherwise every block was read. -/
theorem pool_refuses_oversize {work : PoolWork} {workers ceiling : Word} {trace : Trace}
    {first : Pool} (manned : workers = 0 -> work.blocks = [])
    (started : Pool.start work workers { ceiling := ceiling } trace = .ok first) :
    (forall (schedule : List (Nat × Bool)) (last : Pool),
      first.drift work schedule = some last ->
      schedule.length ≤ (workers.toNat + 9) * work.blocks.length + 2 * workers.toNat ∧
        (last.isDone = true ∨ ∃ id next, last.step work id = some next) ∧
        last.readBlocks.Nodup ∧
        forall index, index ∈ last.readBlocks ->
          ∃ block, work.blocks[index]? = some block ∧ block.length ≤ ceiling) ∧
    forall (schedule : List (Nat × Bool)) (last : Pool),
      first.drift work schedule = some last -> last.isDone = true ->
      last.faultedWorkers = [] ->
      last.workers.length = workers.toNat ∧
        (forall worker, worker ∈ last.workers -> worker.phase = .finished) ∧
        last.budget.used = 0 ∧
        ((∃ requested, last.answer work =
            .error (.failure (.budgetExceeded requested ceiling))) <->
          ∃ block, block ∈ work.blocks ∧ ceiling < block.length) ∧
        (forall stop, last.answer work = .error stop ->
          ∃ block, block ∈ work.blocks ∧ ceiling < block.length ∧
            stop = .failure (.budgetExceeded block.length ceiling)) ∧
        forall outcome, last.answer work = .ok outcome ->
          last.readBlocks.Perm (List.range work.blocks.length) ∧
            outcome.hits.length = work.blocks.length := by
  refine ⟨fun schedule last drifted => ?_, fun schedule last drifted done unharmed => ?_⟩
  · rcases refusing_of_drift started drifted with ⟨watched, refusing⟩
    have bound := length_add_potential_le_of_drift drifted
    rw [potential_start started] at bound
    refine ⟨by omega, watched.isDone_or_step, ?_, refusing.fits⟩
    refine List.nodup_iff_count.mpr fun index => ?_
    have few := refusing.taken_le index
    split at few <;> omega
  · rcases refusing_of_drift started drifted with ⟨watched, refusing⟩
    have finished : forall worker, worker ∈ last.workers -> worker.phase = .finished :=
      fun worker => phase_eq_finished done unharmed
    have number : last.workers.length = workers.toNat := by
      rcases exists_arena_of_start started with ⟨arena, -, rfl⟩
      rw [drift_length drifted, List.length_replicate]
    have crewed : last.workers = [] -> work.blocks = [] := by
      intro none
      rw [none, List.length_nil] at number
      exact manned (UInt64.toNat_inj.mp number.symm)
    have left := refusing.cause_ne_none_iff finished crewed
    refine ⟨number, finished, ?_, ?_⟩
    · have used := watched.used_eq
      rw [phaseTotal_eq_zero_of_finished finished rfl] at used
      exact UInt64.toNat_inj.mp used
    · rw [answer_eq_of_faults]
      rw [unharmed]
      cases explained : last.cause with
      | none =>
          rw [explained] at left
          refine ⟨⟨?_, fun wide => absurd rfl (left.mpr wide)⟩, ?_, ?_⟩
          · rintro ⟨requested, answered⟩
            contradiction
          · intro stop answered
            contradiction
          · intro outcome answered
            cases answered
            exact ⟨refusing.readBlocks_perm finished crewed explained, hits_length work last⟩
      | some cause =>
          rcases refusing.cause_exceeds cause explained with ⟨block, member, wide, rfl⟩
          refine ⟨⟨fun _ => ⟨block, member, wide⟩, fun _ => ⟨block.length, rfl⟩⟩, ?_, ?_⟩
          · intro stop answered
            cases answered
            exact ⟨block, member, wide, rfl⟩
          · intro outcome answered
            contradiction

/-- A block of five bytes and one of three, read as zeros. -/
def oversizeWork : PoolWork :=
  { pairWork with
    regions := [Region.gap ⟨0⟩ 8]
    blocks := [⟨⟨0⟩, 5, 0⟩, ⟨⟨5⟩, 3, 0⟩] }

/-- Under a ceiling of four bytes the first of two workers is refused.  The second one
misses the sign, reads the other block, and is done before the cause is left. -/
theorem pool_refuses_oversize_of_five :
    ∃ first last, Pool.start oversizeWork 2 { ceiling := 4 } {} = .ok first ∧
      first.drift oversizeWork
        [(0, true), (0, true), (0, true), (0, true), (1, false), (1, true), (1, true),
          (1, true), (1, true), (1, true), (1, true), (1, true), (0, true)] = some last ∧
      last.answer oversizeWork = .error (.failure (.budgetExceeded 5 4)) ∧
      last.readBlocks = [1] ∧
      (forall worker, worker ∈ last.workers -> worker.phase = .finished) ∧
      last.budget.used = 0 := by
  have refuses := @pool_refuses_oversize oversizeWork 2 4 {} _
    (fun none => absurd none (by decide)) rfl
  rcases refuses.2
    [(0, true), (0, true), (0, true), (0, true), (1, false), (1, true), (1, true),
      (1, true), (1, true), (1, true), (1, true), (1, true), (0, true)] _ rfl rfl rfl with
    ⟨-, finished, unused, -, -, -⟩
  exact ⟨_, _, rfl, rfl, rfl, rfl, finished, unused⟩

end Pool
end MemoryProbe
