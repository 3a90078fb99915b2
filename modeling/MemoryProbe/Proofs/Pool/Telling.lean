import MemoryProbe.Proofs.Pool.Faultless
import MemoryProbe.Proofs.Pool.Mirroring
import MemoryProbe.Proofs.Pool.Refusal
import MemoryProbe.Proofs.Search.Complaining

namespace MemoryProbe

/-!
Complaints of a pool.  A block that was read but not in full is complained about exactly once:
its complaint is with the worker that read it until it is told, and then it stands in the
receiver.  In which order the complaints arrive is up to the schedule.
-/

/-- From here on, telling is as good as silence: it comes to an end, and changes the diagnostics
alone. -/
theorem Reader.tellsThrough_silent (reader : Reader) (honest : reader.target.Honest)
    (sink : Sink) :
    reader.TellsThrough false (fun trace => { trace with diagnostics := sink })
      ReadFailure.Legible where
  reads _ := rfl
  counted _ := rfl
  skip region failure legible := by
    intro trace
    rcases @Reader.skip_ok reader region failure trace fun _ => legible with ⟨drain, told⟩
    rw [told]
    rfl
  failed code := ReadFailure.text_failed code
  short earlier address length bytes asked :=
    ReadFailure.text_short (honest earlier address length.toNat bytes asked)

namespace PoolWork

/-- The message that a worker is about to tell. -/
def due? (work : PoolWork) : WorkerPhase -> Option String
  | .telling _ region failure =>
    failure.text.toOption.map fun text => work.reader.target.heading region ++ text
  | _ => none

theorem due?_of_text {work : PoolWork} {taken : TakenBlock} {region : Region}
    {failure : ReadFailure} {text : String} (known : failure.text = .ok text) :
    work.due? (.telling taken region failure) =
      some (work.reader.target.heading region ++ text) := by
  unfold due?
  dsimp only
  rw [known]
  rfl

/-- How often a worker is about to tell a message. -/
def dues (work : PoolWork) (message : String) (phase : WorkerPhase) : Nat :=
  (work.due? phase).toList.count message

end PoolWork

namespace Pool

/-- What was told so far in a pool that began with a trace, and what is yet to be told. -/
structure Telling (work : PoolWork) (begun : Trace) (longest : Nat) (told : List String)
    (pool : Pool) : Prop where
  serves : pool.arena.Serves pool.workers.length longest
  reads_eq : pool.trace.reads = begun.reads + pool.readBlocks.length
  takes : pool.trace.diagnostics.TakesAll
  text_eq : pool.trace.diagnostics.text = begun.diagnostics.text ++ String.join told
  told_eq : forall message, told.count message + pool.phaseTotal (work.dues message) =
    (work.complaints begun.reads pool.readBlocks).count message
  failed_eq : pool.failedBlocks + pool.phaseTotal WorkerPhase.skips =
    (work.complaints begun.reads pool.readBlocks).length

namespace Telling

variable {work : PoolWork} {begun : Trace} {longest : Nat} {told : List String}
  {pool next after : Pool} {id : Nat} {worker : Worker} {before phase : WorkerPhase}
  {ceiling : Word}

theorem start {workers : Word} {budget : Budget} (manned : workers ≠ 0)
    (takes : begun.diagnostics.TakesAll)
    (started : Pool.start work workers budget begun = .ok pool) :
    Telling work begun ((longestBlock? work.blocks).getD 0).toNat [] pool := by
  have serves := serves_start manned started
  rcases exists_arena_of_start started with ⟨arena, made, rfl⟩
  have idle : forall weigh : WorkerPhase -> Nat, weigh .ready = 0 ->
      phaseTotal weigh
        { workers := List.replicate workers.toNat {}
          arena := arena
          budget := budget
          trace := begun } = 0 := by
    intro weigh none
    refine phaseTotal_eq_zero_iff.mpr fun worker member => ?_
    rw [List.eq_of_mem_replicate member]
    exact none
  refine ⟨serves, rfl, takes, String.append_empty.symm, fun message => ?_, ?_⟩
  · rw [idle _ rfl]
    rfl
  · rw [idle _ rfl]
    rfl

/-- A block that was just read fits the buffer, and its complaint is with the worker. -/
theorem read_next (telling : Telling work begun longest told pool)
    (honest : work.reader.target.Honest)
    (fits : forall block, block ∈ work.blocks -> block.length.toNat ≤ longest)
    {taken : TakenBlock} {region : Region} {answer : Except MemoryError (List UInt8)}
    {filled : Arena} (inside : id < pool.workers.length)
    (here : work.blocks[taken.index]? = some taken.block)
    (there : work.regions[taken.block.regionIndex]? = some region)
    (asked : work.reader.target.read pool.trace.reads taken.block.start
      taken.block.length.toNat = answer)
    (ends : Settles work pool.arena id taken region answer (phase, filled)) :
    work.due? phase = work.complaintAt? (begun.reads + pool.readBlocks.length) taken.index ∧
      phase.skips = (work.due? phase).toList.length := by
  rw [PoolWork.complaintAt?_eq here there, <- telling.reads_eq, asked]
  have complains : forall {failure : ReadFailure} {text : String} {complaint : Option String},
      failure.text = .ok text ->
      complaint = some (work.reader.target.heading region ++ text) ->
      work.due? (.telling taken region failure) = complaint ∧
        WorkerPhase.skips (.telling taken region failure) =
          (work.due? (.telling taken region failure)).toList.length := by
    rintro failure text complaint known rfl
    rw [PoolWork.due?_of_text known]
    exact ⟨rfl, rfl⟩
  cases ends with
  | failed cause =>
      rcases @ReadFailure.complaint?_of_error work.reader.target region taken.block cause with
        ⟨text, known, same⟩
      exact complains known same
  | misfit bytes kind unwritten =>
      have short := List.length_take_le taken.block.length.toNat bytes
      have long := fits _ (List.mem_of_getElem? here)
      rcases telling.serves.exists_write inside (Nat.le_trans short long) with ⟨filled, written⟩
      cases written.symm.trans unwritten
  | whole bytes filled written all =>
      refine ⟨(if_pos all).symm, ?_⟩
      unfold matchBuffer
      dsimp only
      split <;> rfl
  | short bytes filled written less =>
      rcases @ReadFailure.complaint?_of_short work.reader.target region taken.block bytes
        (honest _ _ _ _ asked) less with ⟨text, known, complaint⟩
      exact complains known complaint

section Step

variable (telling : Telling work begun longest told pool)
  (honest : work.reader.target.Honest) (tells : work.reader.tellsFailures = true)
  (fits : forall block, block ∈ work.blocks -> block.length.toNat ≤ longest)
  (claims : forall worker, worker ∈ pool.workers -> work.Claims ceiling worker.phase)
  (legible : pool.TellsOf ReadFailure.Legible)
  (turn : Turn work pool id before after phase)
  (found : pool.workers[id]? = some worker) (leaves : worker.phase = before)

include telling turn

theorem reads_next : after.trace.reads = begun.reads + after.readBlocks.length := by
  have earlier := telling.reads_eq
  cases turn with
  | read taken region answer phase filled there asked ends =>
      rw [List.length_append, List.length_singleton, <- Nat.add_assoc, <- earlier]
  | tell taken region failure trace said =>
      rw [Reader.skip_trace said]
      exact earlier
  | mistell taken region failure stop trace said =>
      rw [Reader.skip_trace said]
      exact earlier
  | _ => exact earlier

include found leaves

include honest fits claims in
/-- A complaint is with the worker that has just read its block. -/
theorem told_balance (message : String) :
    work.dues message phase + (work.complaints begun.reads pool.readBlocks).count message =
      (work.complaints begun.reads after.readBlocks).count message := by
  have inside := (List.getElem?_eq_some_iff.mp found).1
  have earlier := leaves ▸ claims worker (List.mem_of_getElem? found)
  cases turn with
  | read taken region answer phase filled there asked ends =>
      have due := (telling.read_next honest fits inside earlier.1 there asked ends).1
      rw [PoolWork.complaints_concat, List.count_append, <- due]
      exact Nat.add_comm _ _
  | _ => exact Nat.zero_add _

include legible

include tells in
/-- A worker that is about to tell a message tells it, and the others are silent. -/
theorem text_next : after.trace.diagnostics.TakesAll ∧
    after.trace.diagnostics.text =
      pool.trace.diagnostics.text ++ String.join (work.due? before).toList := by
  have earlier := leaves ▸ legible worker (List.mem_of_getElem? found)
  have said : forall {region failure text}, failure.text = .ok text ->
      ∃ drain : Sink, (work.reader.skip region failure : Run ScanError Unit) pool.trace =
          (.ok (), { pool.trace with diagnostics := drain }) ∧ drain.TakesAll ∧
        drain.text = pool.trace.diagnostics.text ++ (work.reader.target.heading region ++ text) :=
    fun known => Reader.skip_of_takesAll tells known telling.takes
  cases turn with
  | tell taken region failure trace ran =>
      rcases earlier with ⟨text, known⟩
      rcases @said region failure text known with ⟨drain, told, stays, written⟩
      cases told.symm.trans ran
      refine ⟨stays, ?_⟩
      rw [written, PoolWork.due?_of_text known, Option.toList_some, Sink.join_one]
  | mistell taken region failure stop trace ran =>
      exact absurd ran (Reader.skip_ne_stopped earlier)
  | _ => exact ⟨telling.takes, String.append_empty.symm⟩

include honest fits claims

/-- A skipped block is on its way to be counted from the moment it is complained about. -/
theorem failed_balance :
    after.failedBlocks + phase.skips + (work.complaints begun.reads pool.readBlocks).length =
      pool.failedBlocks + before.skips +
        (work.complaints begun.reads after.readBlocks).length := by
  have inside := (List.getElem?_eq_some_iff.mp found).1
  have earlier := leaves ▸ claims worker (List.mem_of_getElem? found)
  have clear := leaves ▸ legible worker (List.mem_of_getElem? found)
  cases turn with
  | read taken region answer phase filled there asked ends =>
      rcases telling.read_next honest fits inside earlier.1 there asked ends with ⟨due, skips⟩
      rw [PoolWork.complaints_concat, List.length_append, <- due, <- skips]
      simp only [WorkerPhase.skips]
      omega
  | mistell taken region failure stop trace ran =>
      exact absurd ran (Reader.skip_ne_stopped clear)
  | release taken handling => cases handling <;> rfl
  | wake taken handling whole => cases handling <;> rfl
  | _ => rfl

end Step

/-- What is told and what is yet to be told are the complaints about what was read. -/
theorem step (telling : Telling work begun longest told pool)
    (honest : work.reader.target.Honest) (tells : work.reader.tellsFailures = true)
    (fits : forall block, block ∈ work.blocks -> block.length.toNat ≤ longest)
    (claims : forall worker, worker ∈ pool.workers -> work.Claims ceiling worker.phase)
    (legible : pool.TellsOf ReadFailure.Legible) (stepped : pool.step work id = some next) :
    ∃ told, Telling work begun longest told next := by
  rcases turn_of_step stepped with ⟨worker, before, after, phase, found, leaves, turn, rfl⟩
  have serves := turn.serves telling.serves
  have reads := telling.reads_next turn
  have text := telling.text_next tells legible turn found leaves
  refine ⟨told ++ (work.due? before).toList, ?_, reads, text.1, ?_, fun message => ?_, ?_⟩
  · rw [length_enter, turn.length_after]
    exact serves
  · rw [String.join_append, <- String.append_assoc, <- telling.text_eq]
    exact text.2
  · have exchanged := turn.phaseTotal_next found leaves (work.dues message) fun _ => rfl
    have books := telling.told_eq message
    have balance := telling.told_balance honest fits claims turn found leaves message
    have told_now : work.dues message before = (work.due? before).toList.count message := rfl
    rw [List.count_append, <- told_now]
    change _ = (work.complaints begun.reads after.readBlocks).count message
    omega
  · have exchanged := turn.phaseTotal_next found leaves WorkerPhase.skips fun _ => rfl
    have books := telling.failed_eq
    have balance := telling.failed_balance honest fits claims legible turn found leaves
    change after.failedBlocks + _ = (work.complaints begun.reads after.readBlocks).length
    omega

/-- Telling has nothing to do with the sign to give up. -/
theorem withSign (telling : Telling work begun longest told pool) (given : Bool) :
    Telling work begun longest told { pool with givesUp := given } :=
  ⟨telling.serves, telling.reads_eq, telling.takes, telling.text_eq, telling.told_eq,
    telling.failed_eq⟩

end Telling

/-- A pool that answers with an outcome met no fault and no refusal. -/
theorem of_answer_eq_ok {work : PoolWork} {pool : Pool} {outcome : ReadOutcome}
    (answered : pool.answer work = .ok outcome) :
    pool.faultedWorkers = [] ∧ pool.cause = none ∧ outcome.failedBlocks = pool.failedBlocks := by
  rw [answer_eq_of_faults] at answered
  split at answered
  · rename_i unharmed
    split at answered
    · cases answered
    · rename_i unexplained
      cases answered
      exact ⟨unharmed, unexplained, rfl⟩
  · cases answered
  · cases answered

section Whole

variable {work : PoolWork} {begun : Trace} {workers ceiling : Word}
  {schedule : List (Nat × Bool)} {first last : Pool}
  (manned : workers ≠ 0) (honest : work.reader.target.Honest)
  (tells : work.reader.tellsFailures = true) (takes : begun.diagnostics.TakesAll)
  (started : Pool.start work workers { ceiling := ceiling } begun = .ok first)
  (drifted : first.drift work schedule = some last)

include manned honest tells takes started drifted

/-- So it is behind any schedule. -/
theorem exists_telling_of_drift :
    ∃ told, Telling work begun ((longestBlock? work.blocks).getD 0).toNat told last := by
  have through := work.reader.tellsThrough_silent honest Sink.unlimited
  have kept := drift_induction
    (fun pool => Watched ceiling pool ∧ Refusing work ceiling pool ∧
      pool.TellsOf ReadFailure.Legible ∧
      ∃ told, Telling work begun ((longestBlock? work.blocks).getD 0).toNat told pool)
    (by
      rintro pool id knows next ⟨watched, refusing, legible, told, telling⟩ moved
      refine ⟨watched.stepKnowing moved, refusing.stepKnowing watched.ceiling_eq moved,
        tellsOf_stepKnowing through legible moved, ?_⟩
      rcases exists_step_of_stepKnowing moved with ⟨later, stepped, rfl⟩
      rcases (telling.withSign (pool.givesUp && knows)).step honest tells
        (fun block member => le_longestBlock member) refusing.claims legible stepped with
        ⟨told, after⟩
      exact ⟨told, after.withSign _⟩)
    ⟨Watched.start rfl started, Refusing.start started, tellsOf_start started, [],
      Telling.start manned takes started⟩ drifted
  exact kept.2.2.2

/-- A pool whose workers are done has told one message for each block that was read but not in
full.  If it answers with an outcome, every block was read, and as many count as skipped as
there are messages. -/
theorem tells_of_isDone (done : last.isDone = true) :
    ∃ told, work.Tells begun last.readBlocks told last.trace ∧
      forall outcome, last.answer work = .ok outcome ->
        outcome.failedBlocks = told.length ∧
          last.readBlocks.Perm (List.range work.blocks.length) := by
  rcases exists_telling_of_drift manned honest tells takes started drifted with ⟨told, telling⟩
  have refusing := (refusing_of_drift started drifted).2
  have silent : forall message, last.phaseTotal (work.dues message) = 0 := by
    refine fun message => phaseTotal_eq_zero_iff.mpr fun worker member => ?_
    have ended := List.all_eq_true.mp done worker member
    cases phase : worker.phase with
    | telling taken region failure => rw [phase] at ended; cases ended
    | _ => rfl
  have each : told.Perm (work.complaints begun.reads last.readBlocks) := by
    refine List.perm_iff_count.mpr fun message => ?_
    have books := telling.told_eq message
    rw [silent message] at books
    exact books
  refine ⟨told, ⟨telling.reads_eq, telling.text_eq, each, ?_, fun index member => ?_⟩,
    fun outcome answered => ?_⟩
  · refine List.nodup_iff_count_le_one.mpr fun index => ?_
    have books := refusing.taken_le index
    split at books <;> omega
  · rcases refusing.fits index member with ⟨block, there, -⟩
    exact (List.getElem?_eq_some_iff.mp there).1
  · rcases of_answer_eq_ok answered with ⟨unharmed, unexplained, skipped⟩
    have finished : forall worker, worker ∈ last.workers -> worker.phase = .finished :=
      fun worker => phase_eq_finished done unharmed
    have crewed : last.workers = [] -> work.blocks = [] := by
      intro none
      rcases exists_arena_of_start started with ⟨arena, -, rfl⟩
      have number := drift_length drifted
      rw [none, List.length_nil, List.length_replicate] at number
      exact absurd (UInt64.toNat_inj.mp number.symm) manned
    refine ⟨?_, refusing.readBlocks_perm finished crewed unexplained⟩
    have books := telling.failed_eq
    rw [phaseTotal_eq_zero_of_finished finished rfl, Nat.add_zero] at books
    rw [skipped, books, each.length_eq]

end Whole

end Pool
end MemoryProbe
