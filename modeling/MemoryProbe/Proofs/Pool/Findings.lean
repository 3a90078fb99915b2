import MemoryProbe.Proofs.Pool.Refusal

namespace MemoryProbe

/-!
What the workers of a pool find in a process that goes on while they read.  A read
may be answered differently each time, so it is only known what may come of a block:
what comes of it after some answer.  A pool that ends without a refusal and without a
fault has, for every block, matches that may be found in it.
-/

namespace WorkerPhase

/-- Whether a worker is on its way with what came of the block with a number. -/
def carries (index : Nat) : WorkerPhase -> Nat
  | .telling taken _ _ => if taken.index = index then 1 else 0
  | .releasing taken _ => if taken.index = index then 1 else 0
  | .waking taken _ => if taken.index = index then 1 else 0
  | .recording taken _ => if taken.index = index then 1 else 0
  | _ => 0

/-- Only matches make a record, and the record is what they say. -/
theorem matched_of_adds {entry : Nat × List Address} {taken : TakenBlock}
    {handling : Handling} (counts : 0 < (WorkerPhase.recording taken handling).adds entry) :
    handling = .matched entry.2 ∧ taken.index = entry.1 := by
  change 0 < makes entry taken.index handling at counts
  cases handling with
  | matched hits =>
      by_cases same : hits ≠ [] ∧ (taken.index, hits) = entry
      · rw [<- same.2]
        exact ⟨rfl, rfl⟩
      · rw [makes, if_neg same] at counts
        exact absurd counts (Nat.lt_irrefl 0)
  | _ => exact absurd counts (Nat.lt_irrefl 0)

end WorkerPhase

namespace PoolWork

/-- What a phase says about a block of the plan may be so. -/
def Credible (work : PoolWork) : WorkerPhase -> Prop
  | .reserving taken => work.blocks[taken.index]? = some taken.block
  | .asleep taken => work.blocks[taken.index]? = some taken.block
  | .reading taken => work.blocks[taken.index]? = some taken.block
  | .telling taken _ _ =>
    work.blocks[taken.index]? = some taken.block ∧ work.MayCome taken.block .skipped
  | .releasing taken handling =>
    work.blocks[taken.index]? = some taken.block ∧
      (handling ≠ .faulted -> work.MayCome taken.block handling)
  | .waking taken handling =>
    work.blocks[taken.index]? = some taken.block ∧
      (handling ≠ .faulted -> work.MayCome taken.block handling)
  | .recording taken handling =>
    work.blocks[taken.index]? = some taken.block ∧
      (handling ≠ .faulted -> work.MayCome taken.block handling)
  | _ => True

theorem credible_awaken {work : PoolWork} {phase : WorkerPhase}
    (credible : work.Credible phase) : work.Credible phase.awaken := by
  cases phase <;> exact credible

end PoolWork

/-- What a list holds after entries were set is one of them or was there before. -/
theorem getElem?_foldl_set {α : Type} {initial : List α} {entries : List (Nat × α)}
    {index : Nat} {value : α}
    (found : (entries.foldl (fun results entry => results.set entry.1 entry.2) initial)[index]? =
      some value) :
    (∃ entry, entry ∈ entries ∧ entry.1 = index ∧ entry.2 = value) ∨
      initial[index]? = some value ∧ forall entry, entry ∈ entries -> entry.1 ≠ index := by
  induction entries generalizing initial with
  | nil => exact Or.inr ⟨found, fun entry member => absurd member List.not_mem_nil⟩
  | cons entry rest ih =>
      rcases ih found with ⟨other, member, set⟩ | ⟨earlier, none⟩
      · exact Or.inl ⟨other, List.mem_cons_of_mem _ member, set⟩
      · change (initial.set entry.1 entry.2)[index]? = some value at earlier
        by_cases same : entry.1 = index
        · rw [same] at earlier
          have inside := (List.getElem?_eq_some_iff.mp earlier).1
          rw [List.length_set] at inside
          rw [List.getElem?_set_self inside, Option.some.injEq] at earlier
          exact Or.inl ⟨entry, List.mem_cons_self, same, earlier⟩
        · rw [List.getElem?_set_ne same] at earlier
          refine Or.inr ⟨earlier, fun other member => ?_⟩
          rcases List.mem_cons.mp member with first | later
          · exact first ▸ same
          · exact none other later

namespace Pool

/-- What the workers carry and have recorded, as far as it may have come of the blocks. -/
structure Findings (work : PoolWork) (pool : Pool) : Prop where
  credible : forall worker, worker ∈ pool.workers -> work.Credible worker.phase
  recorded : forall entry, 0 < pool.foundCount entry ->
    ∃ block, work.blocks[entry.1]? = some block ∧ work.MayFind block entry.2
  /-- What came of a block that was read is carried, lost to a fault, recorded, or it
  was nothing. -/
  settled : forall index, index ∈ pool.readBlocks ->
    0 < pool.phaseTotal (WorkerPhase.carries index) ∨
    0 < pool.phaseTotal WorkerPhase.trouble ∨
    (∃ hits, 0 < pool.foundCount (index, hits)) ∨
    ∃ block, work.blocks[index]? = some block ∧ work.MayFind block []

variable {work : PoolWork} {pool next : Pool} {id : Nat}

namespace Findings

variable {worker : Worker} {before phase : WorkerPhase} {after : Pool}

theorem start {workers : Word} {budget : Budget} {trace : Trace}
    (started : Pool.start work workers budget trace = .ok pool) : Findings work pool := by
  rcases exists_arena_of_start started with ⟨arena, -, rfl⟩
  refine ⟨fun worker member => ?_, fun entry counts => ?_, fun index member => ?_⟩
  · rw [List.eq_of_mem_replicate member]
    trivial
  · unfold foundCount at counts
    rw [List.map_replicate] at counts
    simp at counts
  · exact absurd member List.not_mem_nil

/-- A worker goes on with what may have come of its block. -/
theorem credible_phase (findings : Findings work pool)
    (turn : Turn work pool id before after phase)
    (found : pool.workers[id]? = some worker) (leaves : worker.phase = before) :
    work.Credible phase := by
  have earlier : work.Credible before :=
    leaves ▸ findings.credible worker (List.mem_of_getElem? found)
  cases turn with
  | take block there => exact there
  | sleep taken fits full => exact earlier
  | reserve taken used total room => exact earlier
  | miss taken missing => exact ⟨earlier, fun whole => absurd rfl whole⟩
  | read taken region answer phase filled there asked ends =>
      have comes : work.MayCome taken.block (work.handledAfter taken.block answer) :=
        ⟨pool.trace.reads, asked ▸ rfl⟩
      rcases PoolWork.phase_of_settles ends with ⟨failure, rfl, skipped⟩ | rfl | rfl
      · exact ⟨earlier, skipped ▸ comes⟩
      · exact ⟨earlier, fun whole => absurd rfl whole⟩
      · exact ⟨earlier, fun _ => comes⟩
  | tell taken region failure trace told => exact ⟨earlier.1, fun _ => earlier.2⟩
  | mistell taken region failure stop trace told =>
      exact ⟨earlier.1, fun whole => absurd rfl whole⟩
  | release taken handling => exact earlier
  | wake taken handling whole => exact earlier
  | _ => trivial

/-- What a worker records may have been found in its block. -/
theorem recorded_next (findings : Findings work pool)
    (turn : Turn work pool id before after phase)
    (found : pool.workers[id]? = some worker) (leaves : worker.phase = before)
    (entry : Nat × List Address) (counts : 0 < (after.enter id phase).foundCount entry) :
    ∃ block, work.blocks[entry.1]? = some block ∧ work.MayFind block entry.2 := by
  have earlier : work.Credible before :=
    leaves ▸ findings.credible worker (List.mem_of_getElem? found)
  have grown := turn.foundCount_next found entry
  by_cases old : 0 < pool.foundCount entry
  · exact findings.recorded entry old
  · have new : 0 < before.adds entry := by omega
    cases turn with
    | recordHits taken hits =>
        rcases WorkerPhase.matched_of_adds new with ⟨same, place⟩
        rw [<- place]
        refine ⟨taken.block, earlier.1, .matched hits, earlier.2 (by simp), by simp, ?_⟩
        rw [same]
        rfl
    | _ => exact absurd new (Nat.lt_irrefl 0)

/-- What a worker carries it goes on carrying, loses to a fault, or records. -/
theorem carried_next (turn : Turn work pool id before after phase) {index : Nat}
    (carried : 0 < before.carries index) :
    0 < phase.carries index ∨ 0 < phase.trouble ∨
      ∃ taken handling, before = .recording taken handling ∧ handling ≠ .faulted ∧
        taken.index = index := by
  cases turn with
  | tell taken region failure trace told => exact Or.inl carried
  | mistell taken region failure stop trace told => exact Or.inl carried
  | release taken handling => exact Or.inl carried
  | wake taken handling whole => exact Or.inl carried
  | wakeFaulted taken => exact Or.inr (Or.inl Nat.one_pos)
  | recordHits taken hits =>
      refine Or.inr (Or.inr ⟨taken, _, rfl, by simp, ?_⟩)
      by_contra other
      rw [WorkerPhase.carries, if_neg other] at carried
      exact absurd carried (Nat.lt_irrefl 0)
  | recordSkip taken =>
      refine Or.inr (Or.inr ⟨taken, _, rfl, by simp, ?_⟩)
      by_contra other
      rw [WorkerPhase.carries, if_neg other] at carried
      exact absurd carried (Nat.lt_irrefl 0)
  | recordFault taken => exact Or.inr (Or.inl Nat.one_pos)
  | _ => exact absurd carried (Nat.lt_irrefl 0)

/-- What a worker records is there afterwards, unless it was nothing. -/
theorem recorded_or_nothing {taken : TakenBlock} {handling : Handling} {later : Pool}
    (credible : work.Credible (.recording taken handling)) (whole : handling ≠ .faulted)
    (grown : forall entry, later.foundCount entry =
      pool.foundCount entry + (WorkerPhase.recording taken handling).adds entry) :
    (∃ hits, 0 < later.foundCount (taken.index, hits)) ∨
      ∃ block, work.blocks[taken.index]? = some block ∧ work.MayFind block [] := by
  have comes := credible.2 whole
  cases handling with
  | matched hits =>
      by_cases empty : hits = []
      · exact Or.inr ⟨taken.block, credible.1, .matched hits, comes, whole, empty⟩
      · have more := grown (taken.index, hits)
        have one : (WorkerPhase.recording taken (.matched hits)).adds (taken.index, hits) = 1 :=
          if_pos ⟨empty, rfl⟩
        exact Or.inl ⟨hits, by omega⟩
  | skipped => exact Or.inr ⟨taken.block, credible.1, .skipped, comes, whole, rfl⟩
  | faulted => exact absurd rfl whole

theorem settled_next (findings : Findings work pool)
    (turn : Turn work pool id before after phase)
    (found : pool.workers[id]? = some worker) (leaves : worker.phase = before)
    {index : Nat} (member : index ∈ after.readBlocks) :
    0 < (after.enter id phase).phaseTotal (WorkerPhase.carries index) ∨
    0 < (after.enter id phase).phaseTotal WorkerPhase.trouble ∨
    (∃ hits, 0 < (after.enter id phase).foundCount (index, hits)) ∨
    ∃ block, work.blocks[index]? = some block ∧ work.MayFind block [] := by
  have carrying := turn.phaseTotal_next found leaves (WorkerPhase.carries index) fun _ => rfl
  have troubled := turn.phaseTotal_next found leaves WorkerPhase.trouble fun _ => rfl
  have stays := turn.trouble_le
  have earlier : work.Credible before :=
    leaves ▸ findings.credible worker (List.mem_of_getElem? found)
  have old : index ∈ pool.readBlocks ∨ 0 < phase.carries index := by
    cases turn with
    | read taken region answer phase filled there asked ends =>
        rcases List.mem_append.mp member with old | new
        · exact Or.inl old
        · right
          rw [List.mem_singleton.mp new]
          cases ends <;> simp [WorkerPhase.carries]
    | _ => exact Or.inl member
  rcases old with old | new
  · rcases findings.settled index old with carried | lost | ⟨hits, counts⟩ | nothing
    · by_cases own : 0 < before.carries index
      · rcases carried_next turn own with carries | lost | ⟨taken, handling, rfl, whole, rfl⟩
        · have part := turn.weight_le found (WorkerPhase.carries index)
          left
          omega
        · have part := turn.weight_le found WorkerPhase.trouble
          right
          left
          omega
        · exact Or.inr (Or.inr (recorded_or_nothing earlier whole fun entry =>
            turn.foundCount_next found entry))
      · left
        omega
    · right
      left
      omega
    · have grown := turn.foundCount_next found (index, hits)
      exact Or.inr (Or.inr (Or.inl ⟨hits, by omega⟩))
    · exact Or.inr (Or.inr (Or.inr nothing))
  · have part := turn.weight_le found (WorkerPhase.carries index)
    left
    omega

theorem step (findings : Findings work pool) (stepped : pool.step work id = some next) :
    Findings work next := by
  rcases turn_of_step stepped with ⟨worker, before, after, phase, found, leaves, turn, rfl⟩
  have entered := findings.credible_phase turn found leaves
  refine ⟨?_, findings.recorded_next turn found leaves, fun index member => ?_⟩
  · exact turn.forall_next found work.Credible (fun _ => PoolWork.credible_awaken)
      findings.credible entered
  · exact findings.settled_next turn found leaves member

/-- The sign to give up changes nothing about what was found. -/
theorem withSign (findings : Findings work pool) (given : Bool) :
    Findings work { pool with givesUp := given } :=
  ⟨findings.credible, findings.recorded, findings.settled⟩

theorem stepKnowing {knows : Bool} (findings : Findings work pool)
    (moved : pool.stepKnowing work knows id = some next) : Findings work next := by
  rcases exists_step_of_stepKnowing moved with ⟨later, stepped, rfl⟩
  exact ((findings.withSign _).step stepped).withSign _

theorem follow {schedule : List Nat} (findings : Findings work pool)
    (followed : pool.follow work schedule = some next) : Findings work next :=
  follow_induction (Findings work) (fun _ _ _ kept stepped => kept.step stepped)
    findings followed

/-- The matches of a block that was read may be found in it, once the workers have
finished. -/
theorem mayFind_of_hits (findings : Findings work pool)
    (finished : forall worker, worker ∈ pool.workers -> worker.phase = .finished)
    {index : Nat} {block : ReadBlock} {found : List Address}
    (member : index ∈ pool.readBlocks) (there : work.blocks[index]? = some block)
    (listed : (pool.hits work)[index]? = some found) : work.MayFind block found := by
  have recorded : forall entry, entry ∈ pool.workers.flatMap Worker.found ->
      entry.1 = index -> work.MayFind block entry.2 := by
    intro entry among same
    rw [<- List.count_pos_iff, <- foundCount_eq_count] at among
    rcases findings.recorded entry among with ⟨other, here, finds⟩
    rw [same, there, Option.some.injEq] at here
    exact here ▸ finds
  rcases getElem?_foldl_set listed with ⟨entry, among, same, rfl⟩ | ⟨initial, none⟩
  · exact recorded entry among same
  · -- No record was left, so nothing came of the block.
    rw [List.getElem?_replicate] at initial
    split at initial
    · cases initial
      rcases findings.settled index member with carried | lost | ⟨hits, counts⟩ | nothing
      · rw [phaseTotal_eq_zero_of_finished finished rfl] at carried
        exact absurd carried (Nat.lt_irrefl 0)
      · rw [phaseTotal_eq_zero_of_finished finished rfl] at lost
        exact absurd lost (Nat.lt_irrefl 0)
      · rw [foundCount_eq_count, List.count_pos_iff] at counts
        exact absurd rfl (none _ counts)
      · rcases nothing with ⟨other, here, finds⟩
        rw [there, Option.some.injEq] at here
        exact here ▸ finds
    · contradiction

end Findings

/-- A pool that answers with an outcome has found in every block what may be found there,
whatever the order of the steps and the answers of the process. -/
theorem mayFind_of_answer {work : PoolWork} {workers ceiling : Word} {trace : Trace}
    {first last : Pool} {outcome : ReadOutcome} (manned : workers ≠ 0)
    (started : Pool.start work workers { ceiling := ceiling } trace = .ok first)
    (reached : first.Leads work last) (done : last.isDone = true)
    (answered : last.answer work = .ok outcome) :
    List.Forall₂ work.MayFind work.blocks outcome.hits := by
  rcases reached with ⟨schedule, followed⟩
  have findings := (Findings.start started).follow followed
  have refusing : Refusing work ceiling last := by
    rw [<- drift_knowing] at followed
    exact (refusing_of_drift started followed).2
  rw [answer_eq_of_faults] at answered
  cases unharmed : last.faultedWorkers with
  | nil =>
      rw [unharmed] at answered
      cases unexplained : last.cause with
      | some cause =>
          rw [unexplained] at answered
          contradiction
      | none =>
          rw [unexplained] at answered
          cases answered
          have finished : forall worker, worker ∈ last.workers -> worker.phase = .finished :=
            fun worker => phase_eq_finished done unharmed
          have crewed : last.workers ≠ [] := by
            intro none
            rcases exists_arena_of_start started with ⟨arena, -, rfl⟩
            have number := follow_length followed
            rw [none, List.length_replicate] at number
            exact manned (UInt64.toNat_inj.mp number.symm)
          have all := refusing.readBlocks_perm finished (fun none => absurd none crewed)
            unexplained
          refine List.forall₂_iff_get.mpr ⟨(hits_length work last).symm, ?_⟩
          intro index inside within
          refine findings.mayFind_of_hits finished ?_ (List.getElem?_eq_getElem inside)
            (List.getElem?_eq_getElem within)
          exact all.mem_iff.mpr (List.mem_range.mpr inside)
  | cons id others =>
      rw [unharmed] at answered
      cases others <;> contradiction

end Pool
end MemoryProbe
