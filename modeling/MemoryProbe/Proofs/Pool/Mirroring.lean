import MemoryProbe.Proofs.Mirroring
import MemoryProbe.Proofs.Pool.Signal

namespace MemoryProbe

/-!
Readers and pools from a changed trace.  Apart from the number of reads, a trace matters to
the blocks only where a skipped block is told about.  If telling mirrors itself through a
change of the trace, so do a reader that handles the blocks in their order and a pool under
every schedule; the two sides may even differ in whether they tell.
-/

/-- A reader that tells about the blocks it skips, or does not. -/
def Reader.telling (reader : Reader) (tells : Bool) : Reader :=
  { reader with tellsFailures := tells }

/-- A reader tells the same through a change of the trace as the one that tells or not: the
change leaves the number of reads, and passes through telling of each failure that can arise. -/
structure Reader.TellsThrough (reader : Reader) (tells : Bool) (change : Trace -> Trace)
    (arises : ReadFailure -> Prop) : Prop where
  reads : forall trace, (change trace).reads = trace.reads
  counted : forall trace,
    change { trace with reads := trace.reads + 1 } =
      { change trace with reads := trace.reads + 1 }
  skip : forall region failure, arises failure ->
    Mirrors change (reader.skip region failure : Run ScanError Unit)
      ((reader.telling tells).skip region failure)
  failed : forall code, arises (.failed code)
  short : forall earlier address (length : Word) bytes,
    reader.target.read earlier address length.toNat = .ok bytes ->
      arises (.short (UInt64.ofNat bytes.length) length)

namespace Reader

variable {reader : Reader} {tells : Bool} {change : Trace -> Trace}
  {arises : ReadFailure -> Prop}

/-! ## One reader -/

namespace TellsThrough

variable (through : reader.TellsThrough tells change arises)

include through

theorem readIn (address : Address) (length : Nat) :
    Mirrors change (reader.target.readIn address length : Run ScanError _)
      (reader.target.readIn address length) := by
  intro trace
  unfold Target.readIn
  rw [through.reads, through.counted]

theorem readBlock (pattern : Pattern) (region : Region) (block : ReadBlock) :
    Mirrors change (reader.readBlock pattern region block : Run ScanError _)
      ((reader.telling tells).readBlock pattern region block) := by
  unfold Reader.readBlock
  refine (through.readIn block.start block.length.toNat).bind fun answer may => ?_
  rcases answer with cause | bytes
  · exact (through.skip region _ (through.failed cause.code?)).bind fun _ _ =>
      .const (.ok none) fun _ => rfl
  · dsimp only
    split
    · exact Mirrors.bind (.const _ fun _ => rfl) fun hits _ => .const (.ok (some hits)) fun _ => rfl
    · rcases may with ⟨trace, later, asked⟩
      have answered : reader.target.read trace.reads block.start block.length.toNat = .ok bytes :=
        Except.ok.inj (congrArg Prod.fst asked)
      exact (through.skip region _ (through.short _ _ _ bytes answered)).bind fun _ _ =>
        .const (.ok none) fun _ => rfl

theorem handleBlock (pattern : Pattern) (regions : List Region) (block : ReadBlock) :
    Mirrors change (reader.handleBlock pattern regions block : Run ScanError _)
      ((reader.telling tells).handleBlock pattern regions block) := by
  unfold Reader.handleBlock
  split
  · exact .const _ fun _ => rfl
  · exact through.readBlock pattern _ block

theorem handleBlocks (pattern : Pattern) (regions : List Region) (workers : Nat)
    (tally : ReadTally) (budget : Budget) (blocks : List ReadBlock) :
    Mirrors change (reader.handleBlocks pattern regions workers tally budget blocks)
      ((reader.telling tells).handleBlocks pattern regions workers tally budget blocks) := by
  induction blocks generalizing tally budget with
  | nil => exact fun _ => rfl
  | cons block rest ih =>
      intro trace
      unfold Reader.handleBlocks
      by_cases spent : workers ≤ tally.faults
      · rw [if_pos spent, if_pos spent]
      · rw [if_neg spent, if_neg spent]
        rcases budget.acquire block.length with ⟨cause | kind⟩ | ⟨held | _⟩
        · rfl
        · exact ih tally.addFault budget trace
        · dsimp only
          rw [through.handleBlock pattern regions block trace]
          rcases (reader.handleBlock pattern regions block : Run ScanError _) trace with
            ⟨stop | handled, later⟩
          · exact ih tally.addFault (held.release block.length) later
          · exact ih (tally.add handled) (held.release block.length) later
        · rfl

theorem run (pattern : Pattern) (regions : List Region) (blocks : List ReadBlock)
    (budget : Budget) :
    Mirrors change (reader.run pattern regions blocks budget)
      ((reader.telling tells).run pattern regions blocks budget) := by
  intro trace
  have handled := through.handleBlocks pattern regions
    (reader.workerCount blocks.length) {} budget blocks trace
  have crew : (reader.telling tells).workerCount blocks.length =
      reader.workerCount blocks.length := rfl
  unfold Reader.run
  rw [crew]
  dsimp only
  by_cases unmanned : reader.workerCount blocks.length = 0
  · rw [if_pos unmanned, if_pos unmanned]
    rfl
  · rw [if_neg unmanned, if_neg unmanned]
    rcases Arena.make (UInt64.ofNat (reader.workerCount blocks.length))
      ((longestBlock? blocks).getD 0) with cause | arena
    · rfl
    · simp only [bind, StateT.bind, handled]
      rcases reader.handleBlocks pattern regions (reader.workerCount blocks.length) {} budget
        blocks trace with ⟨⟨kind | tally, spent⟩, later⟩
      · rfl
      · rfl

end TellsThrough

end Reader

/-! ## A pool -/

/-- Work whose reader tells about the blocks it skips, or does not. -/
def PoolWork.telling (work : PoolWork) (tells : Bool) : PoolWork :=
  { work with reader := work.reader.telling tells }

/-- A phase tells of nothing but failures that can arise. -/
def WorkerPhase.TellsOf (arises : ReadFailure -> Prop) : WorkerPhase -> Prop
  | .telling _ _ failure => arises failure
  | _ => True

namespace Pool

/-- A pool with a changed trace. -/
def retrace (pool : Pool) (change : Trace -> Trace) : Pool :=
  { pool with trace := change pool.trace }

/-- All workers tell of nothing but failures that can arise. -/
def TellsOf (arises : ReadFailure -> Prop) (pool : Pool) : Prop :=
  forall worker, worker ∈ pool.workers -> worker.phase.TellsOf arises

variable {work : PoolWork} {pool next : Pool} {id : Nat} {knows tells : Bool}
  {change : Trace -> Trace} {arises : ReadFailure -> Prop}

theorem start_retrace (workers : Word) (budget : Budget) (trace : Trace) :
    Pool.start (work.telling tells) workers budget (change trace) =
      (Pool.start work workers budget trace).map fun pool => pool.retrace change := by
  unfold Pool.start PoolWork.telling
  rcases Arena.make workers ((longestBlock? work.blocks).getD 0) with cause | arena <;> rfl

theorem tellsOf_start {workers : Word} {budget : Budget} {trace : Trace}
    (started : Pool.start work workers budget trace = .ok pool) : pool.TellsOf arises := by
  rcases exists_arena_of_start started with ⟨arena, -, rfl⟩
  intro worker member
  rw [List.eq_of_mem_replicate member]
  trivial

section Steps

variable (through : work.reader.TellsThrough tells change arises)

include through

theorem tellsOf_step (tellsOf : pool.TellsOf arises)
    (stepped : pool.step work id = some next) : next.TellsOf arises := by
  rcases turn_of_step stepped with ⟨worker, before, after, phase, found, leaves, turn, rfl⟩
  refine turn.forall_next found (WorkerPhase.TellsOf arises) (fun phase told => ?_) tellsOf ?_
  · cases phase <;> exact told
  · cases turn with
    | read taken region answer phase arena there asked ends =>
        cases ends with
        | failed cause => exact through.failed cause.code?
        | short bytes filled written less => exact through.short _ _ _ bytes asked
        | _ => trivial
    | _ => trivial

theorem read_retrace (taken : TakenBlock) :
    Pool.read (work.telling tells) (pool.retrace change) id taken =
      (Pool.read work pool id taken).retrace change := by
  unfold Pool.read PoolWork.telling retrace
  dsimp only
  rcases work.regions[taken.block.regionIndex]? with _ | region
  · rfl
  · dsimp only
    rw [through.reads, through.counted]
    rfl

theorem tell_retrace (taken : TakenBlock) (region : Region) (failure : ReadFailure)
    (told : arises failure) :
    Pool.tell (work.telling tells) (pool.retrace change) id taken region failure =
      (Pool.tell work pool id taken region failure).retrace change := by
  have mirrored := through.skip region failure told pool.trace
  unfold Pool.tell PoolWork.telling retrace
  dsimp only
  rw [mirrored]
  rcases (work.reader.skip region failure : Run ScanError Unit) pool.trace with
    ⟨stop | done, later⟩ <;> rfl

/-- A step from a changed trace is the same step, and leaves the trace changed. -/
theorem step_retrace (tellsOf : pool.TellsOf arises) :
    step (work.telling tells) (pool.retrace change) id =
      (step work pool id).map fun next => next.retrace change := by
  unfold step
  change (pool.workers[id]?).bind _ = ((pool.workers[id]?).bind _).map _
  rcases found : pool.workers[id]? with _ | ⟨phase, hits⟩
  · rfl
  · rw [Option.bind_some, Option.bind_some]
    cases phase with
    | reading taken => exact congrArg some (read_retrace through taken)
    | telling taken region failure =>
        exact congrArg some
          (tell_retrace through taken region failure (tellsOf _ (List.mem_of_getElem? found)))
    | reserving taken =>
        change some (Pool.reserve (pool.retrace change) id taken) =
          some ((Pool.reserve pool id taken).retrace change)
        unfold Pool.reserve retrace
        dsimp only
        rcases pool.budget.acquire taken.block.length with ⟨cause | kind⟩ | ⟨held | _⟩ <;> rfl
    | waking taken handling => cases handling <;> rfl
    | recording taken handling =>
        cases handling with
        | matched hits =>
            change some ((Pool.keep (pool.retrace change) id taken hits).enter id .ready) =
              some (((Pool.keep pool id taken hits).enter id .ready).retrace change)
            unfold Pool.keep
            split <;> rfl
        | _ => rfl
    | _ => rfl

theorem stepKnowing_retrace (tellsOf : pool.TellsOf arises) :
    stepKnowing (work.telling tells) knows (pool.retrace change) id =
      (stepKnowing work knows pool id).map fun next => next.retrace change := by
  have hidden : TellsOf arises { pool with givesUp := pool.givesUp && knows } := tellsOf
  have stepped := @step_retrace _ _ id _ _ _ through hidden
  unfold stepKnowing
  change (step (work.telling tells)
    (retrace { pool with givesUp := pool.givesUp && knows } change) id).map _ = _
  rw [stepped, Option.map_map, Option.map_map]
  rfl

theorem tellsOf_stepKnowing (tellsOf : pool.TellsOf arises)
    (moved : stepKnowing work knows pool id = some next) : next.TellsOf arises := by
  rcases exists_step_of_stepKnowing moved with ⟨later, stepped, rfl⟩
  have hidden : TellsOf arises { pool with givesUp := pool.givesUp && knows } := tellsOf
  have kept : later.TellsOf arises := tellsOf_step through hidden stepped
  exact kept

/-- So is a whole schedule. -/
theorem drift_retrace (schedule : List (Nat × Bool)) (tellsOf : pool.TellsOf arises) :
    drift (work.telling tells) (pool.retrace change) schedule =
      (drift work pool schedule).map fun last => last.retrace change := by
  unfold drift
  induction schedule generalizing pool with
  | nil => rfl
  | cons turn rest ih =>
      rw [List.foldlM_cons, List.foldlM_cons, stepKnowing_retrace through tellsOf]
      rcases moved : stepKnowing work turn.2 pool turn.1 with _ | next
      · rfl
      · exact ih (tellsOf_stepKnowing through tellsOf moved)

end Steps

end Pool
end MemoryProbe
