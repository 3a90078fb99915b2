import MemoryProbe.Search.Reader

namespace MemoryProbe

/-!
The workers of a scan, side by side.  They share the number of the next block,
the budget, the sign to give up, and the count of skipped blocks; each has a read
buffer of its own, which it uses again for every block.  One step of the pool is
one access of one worker to what is shared.  A schedule names the workers in the
order of their steps, and any worker that is neither done nor asleep may come
next.  Letting one worker after the other go to its end is one such schedule, and
it is the order in which a reader handles the blocks.
-/

/-- A block that a worker took, with its number. -/
structure TakenBlock where
  index : Nat
  block : ReadBlock
deriving DecidableEq, Repr

/-- What came of a block. -/
inductive Handling where
  | matched (hits : List Address)
  | skipped
  /-- The worker met a fault while it held the bytes of the block. -/
  | faulted
deriving DecidableEq, Repr

/-- What a worker does next. -/
inductive WorkerPhase where
  /-- See whether to give up. -/
  | ready
  /-- Take the number of the next block. -/
  | taking
  /-- Reserve the bytes of a block. -/
  | reserving (taken : TakenBlock)
  /-- Nothing, until another worker gives bytes back. -/
  | asleep (taken : TakenBlock)
  /-- Read a block whose bytes are reserved. -/
  | reading (taken : TakenBlock)
  /-- Tell that a block was not read in full. -/
  | telling (taken : TakenBlock) (region : Region) (failure : ReadFailure)
  /-- Give the bytes of a block back. -/
  | releasing (taken : TakenBlock) (handling : Handling)
  /-- Wake the workers that are asleep. -/
  | waking (taken : TakenBlock) (handling : Handling)
  /-- Record what came of a block. -/
  | recording (taken : TakenBlock) (handling : Handling)
  /-- Give the sign to give up. -/
  | stopping (cause : ScanError)
  /-- Leave the cause of giving up, unless there is one already. -/
  | explaining (cause : ScanError)
  /-- Nothing any more. -/
  | finished
  /-- Nothing any more, after a fault. -/
  | faulted
deriving DecidableEq, Repr

namespace WorkerPhase

/-- The bytes of the budget that a worker holds. -/
def heldBytes : WorkerPhase -> Nat
  | .reading taken => taken.block.length.toNat
  | .telling taken _ _ => taken.block.length.toNat
  | .releasing taken _ => taken.block.length.toNat
  | _ => 0

/-- Whether there is no step left. -/
def isDone : WorkerPhase -> Bool
  | .finished => true
  | .faulted => true
  | _ => false

/-- Whether the worker waits for another one. -/
def isAsleep : WorkerPhase -> Bool
  | .asleep _ => true
  | _ => false

/-- Whether the worker is about to wake the others. -/
def isWaking : WorkerPhase -> Bool
  | .waking _ _ => true
  | _ => false

/-- A worker that was asleep asks for its bytes again. -/
def awaken : WorkerPhase -> WorkerPhase
  | .asleep taken => .reserving taken
  | phase => phase

end WorkerPhase

/-- A worker with the matches it recorded, each with the number of its block. -/
structure Worker where
  phase : WorkerPhase := .ready
  found : List (Nat × List Address) := []
deriving DecidableEq, Repr

structure PoolWork where
  reader : Reader
  pattern : Pattern
  regions : List Region
  blocks : List ReadBlock

/-- The state of a pool. -/
structure Pool where
  workers : List Worker
  arena : Arena
  budget : Budget
  trace : Trace
  /-- The number of the next block. -/
  cursor : Nat := 0
  givesUp : Bool := false
  cause : Option ScanError := none
  failedBlocks : Nat := 0
  /-- The numbers of the blocks that were read, in the order of the reads. -/
  readBlocks : List Nat := []

namespace Pool

/-- A number of workers that are about to begin. -/
def start (work : PoolWork) (workers : Word) (budget : Budget) (trace : Trace) :
    Except ScanError Pool := do
  let arena <- Arena.make workers ((longestBlock? work.blocks).getD 0)
  return {
    workers := List.replicate workers.toNat {}
    arena := arena
    budget := budget
    trace := trace }

/-- Let a worker go on with a phase. -/
def enter (pool : Pool) (id : Nat) (phase : WorkerPhase) : Pool :=
  { pool with
    workers := pool.workers.modify id fun worker => { worker with phase := phase } }

/-- Take the number of the next block; behind the last block the worker is done. -/
def takeNext (work : PoolWork) (pool : Pool) (id : Nat) : Pool :=
  let phase :=
    match work.blocks[pool.cursor]? with
    | some block => .reserving ⟨pool.cursor, block⟩
    | none => .finished
  { pool.enter id phase with cursor := pool.cursor + 1 }

/-- Reserve the bytes of a block, or fall asleep until some are given back. -/
def reserve (pool : Pool) (id : Nat) (taken : TakenBlock) : Pool :=
  match pool.budget.acquire taken.block.length with
  | .error (.failure cause) => pool.enter id (.stopping cause)
  | .error (.fault _) => pool.enter id .faulted
  | .ok .wait => pool.enter id (.asleep taken)
  | .ok (.granted budget) => { pool.enter id (.reading taken) with budget := budget }

/-- Match the pattern in the front of a worker's buffer. -/
def matchBuffer (work : PoolWork) (arena : Arena) (id : Nat) (block : ReadBlock) :
    Handling :=
  let bytes := ((arena.buffers[id]?).getD []).take block.length.toNat
  match block.placesOf work.pattern bytes with
  | .ok hits => .matched hits
  | .error _ => .faulted

/-- What a worker does after the answer to a read, and the buffers then.  Bytes
beyond the block are not kept. -/
def settle (work : PoolWork) (arena : Arena) (id : Nat) (taken : TakenBlock)
    (region : Region) : Except MemoryError (List UInt8) -> WorkerPhase × Arena
  | .error cause => (.telling taken region (.failed cause.code?), arena)
  | .ok bytes =>
    let length := taken.block.length
    match arena.write id 0 (bytes.take length.toNat) with
    | .error _ => (.releasing taken .faulted, arena)
    | .ok filled =>
      if bytes.length = length.toNat then
        (.releasing taken (matchBuffer work filled id taken.block), filled)
      else
        (.telling taken region (.short (UInt64.ofNat bytes.length) length), filled)

/-- Read a block into the buffer of a worker, and match the pattern there if it
was read in full.  Its region has to exist. -/
def read (work : PoolWork) (pool : Pool) (id : Nat) (taken : TakenBlock) : Pool :=
  match work.regions[taken.block.regionIndex]? with
  | none => pool.enter id (.releasing taken .faulted)
  | some region =>
    let answer := work.reader.target.read pool.trace.reads taken.block.start
      taken.block.length.toNat
    let (phase, arena) := settle work pool.arena id taken region answer
    { pool.enter id phase with
      arena := arena
      trace := { pool.trace with reads := pool.trace.reads + 1 }
      readBlocks := pool.readBlocks ++ [taken.index] }

/-- Tell that a block was not read in full, if that is wanted. -/
def tell (work : PoolWork) (pool : Pool) (id : Nat) (taken : TakenBlock)
    (region : Region) (failure : ReadFailure) : Pool :=
  match (work.reader.skip region failure : Run ScanError Unit) pool.trace with
  | (.ok (), trace) =>
    { pool.enter id (.releasing taken .skipped) with trace := trace }
  | (.error _, trace) =>
    { pool.enter id (.releasing taken .faulted) with trace := trace }

/-- Give the bytes of a block back. -/
def release (pool : Pool) (id : Nat) (taken : TakenBlock) (handling : Handling) : Pool :=
  { pool.enter id (.waking taken handling) with
    budget := pool.budget.release taken.block.length }

/-- Wake the workers that are asleep.  A worker that met a fault ends here. -/
def wake (pool : Pool) (id : Nat) (taken : TakenBlock) (handling : Handling) : Pool :=
  let awake : Pool :=
    { pool with
      workers := pool.workers.map fun worker =>
        { worker with phase := worker.phase.awaken } }
  match handling with
  | .faulted => awake.enter id .faulted
  | _ => awake.enter id (.recording taken handling)

/-- Add matches to those that a worker recorded; no matches leave no record. -/
def keep (pool : Pool) (id : Nat) (taken : TakenBlock) (hits : List Address) : Pool :=
  if hits.isEmpty then
    pool
  else
    { pool with
      workers := pool.workers.modify id fun worker =>
        { worker with found := worker.found ++ [(taken.index, hits)] } }

def record (pool : Pool) (id : Nat) (taken : TakenBlock) : Handling -> Pool
  | .matched hits => (pool.keep id taken hits).enter id .ready
  | .skipped => { pool.enter id .ready with failedBlocks := pool.failedBlocks + 1 }
  | .faulted => pool.enter id .faulted

/-- The next step of a worker; nothing if it has none. -/
def step (work : PoolWork) (pool : Pool) (id : Nat) : Option Pool := do
  let worker <- pool.workers[id]?
  match worker.phase with
  | .ready => pool.enter id (if pool.givesUp then .finished else .taking)
  | .taking => takeNext work pool id
  | .reserving taken => pool.reserve id taken
  | .asleep _ => none
  | .reading taken => read work pool id taken
  | .telling taken region failure => tell work pool id taken region failure
  | .releasing taken handling => pool.release id taken handling
  | .waking taken handling => pool.wake id taken handling
  | .recording taken handling => pool.record id taken handling
  | .stopping cause => some { pool.enter id (.explaining cause) with givesUp := true }
  | .explaining cause =>
    some { pool.enter id .finished with cause := pool.cause <|> some cause }
  | .finished => none
  | .faulted => none

/-- The steps of a schedule; nothing if it names a worker that has none. -/
def follow (work : PoolWork) (pool : Pool) (schedule : List Nat) : Option Pool :=
  schedule.foldlM (step work) pool

/-- Whether a pool can come about from another. -/
def Leads (work : PoolWork) (first last : Pool) : Prop :=
  ∃ schedule, first.follow work schedule = some last

/-- The bytes of the budget that the workers hold together. -/
def heldBytes (pool : Pool) : Nat :=
  pool.workers.foldr (fun worker held => worker.phase.heldBytes + held) 0

/-- Whether every worker is done. -/
def isDone (pool : Pool) : Bool :=
  pool.workers.all fun worker => worker.phase.isDone

/-- The recorded matches, one list for each block. -/
def hits (work : PoolWork) (pool : Pool) : List (List Address) :=
  (pool.workers.flatMap Worker.found).foldl
    (fun hits entry => hits.set entry.1 entry.2)
    (List.replicate work.blocks.length [])

/-- The numbers of the workers that met a fault, in rising order. -/
def faultedWorkers (pool : Pool) : List Nat :=
  (List.range pool.workers.length).filter fun id =>
    (pool.workers[id]?).any fun worker => worker.phase == .faulted

/-- Join workers up to the first that met a fault: its number, and whether one of
those behind it, which are not joined, met a fault as well. -/
def joinFrom (id : Nat) : List Worker -> Option (Nat × Bool)
  | [] => none
  | worker :: rest =>
    if worker.phase = .faulted then
      some (id, rest.any fun other => other.phase == .faulted)
    else
      joinFrom (id + 1) rest

/-- What joining all workers comes to.  The fault of a worker that was not joined
is one of the pool as a whole. -/
def joined (pool : Pool) : Except (Halt ScanError) Unit :=
  match joinFrom 0 pool.workers with
  | none => .ok ()
  | some (id, false) => .error (.failure (.workerPanicked id))
  | some (_, true) => .error (.fault .severalWorkers)

/-- The answer of a pool whose workers are done.  A fault of a worker counts
before the cause of giving up. -/
def answer (work : PoolWork) (pool : Pool) : Except (Halt ScanError) ReadOutcome := do
  pool.joined
  match pool.cause with
  | some cause => throw (.failure cause)
  | none => return ⟨hits work pool, pool.workers.length, pool.failedBlocks⟩

end Pool

end MemoryProbe
