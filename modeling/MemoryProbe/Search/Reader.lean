import MemoryProbe.Search.Arena
import MemoryProbe.Search.Budget
import MemoryProbe.Search.Diagnostics
import MemoryProbe.Search.Pattern

namespace MemoryProbe

/-!
Reading the blocks of a scan and matching the pattern in each.  Blocks are
handled one after the other: the bytes of a block are reserved, read, matched
and given back.  A block that cannot be read in full is skipped and counted.  A
block that can never fit the budget ends the reading.  A fault ends the worker
that met it, and the next worker goes on with the next block.
-/

/-- The addresses in a block at which the pattern occurs in the bytes of the block. -/
def ReadBlock.placesOf (block : ReadBlock) (pattern : Pattern) (bytes : List UInt8) :
    Except Fault (List Address) :=
  (pattern.occurrences bytes).mapM fun offset =>
    block.start.advance (UInt64.ofNat offset)

/-- The matches of each block, and how the blocks were read. -/
structure ReadOutcome where
  /-- One list for each block, in the order of the blocks. -/
  hits : List (List Address)
  workers : Nat
  failedBlocks : Nat
deriving DecidableEq, Repr

/-- What came of the blocks handled so far. -/
structure ReadTally where
  /-- The matches of each block, those of the latest block first. -/
  hits : List (List Address) := []
  failedBlocks : Nat := 0
  /-- How many workers met a fault. -/
  faults : Nat := 0
  /-- The refusal that ended the reading. -/
  refusal : Option ScanError := none
deriving DecidableEq, Repr

namespace ReadTally

/-- Add a block with its matches; nothing if it was skipped. -/
def add (tally : ReadTally) : Option (List Address) -> ReadTally
  | some found => { tally with hits := found :: tally.hits }
  | none =>
    { tally with
      hits := [] :: tally.hits
      failedBlocks := tally.failedBlocks + 1 }

/-- Add a block at which a worker met a fault. -/
def addFault (tally : ReadTally) : ReadTally :=
  { tally with
    hits := [] :: tally.hits
    faults := tally.faults + 1 }

/-- What the blocks come to.  A fault of a worker counts before the refusal.  One
fault is laid to the worker that met it; after several the reading as a whole is
a fault. -/
def outcome (workers : Nat) (tally : ReadTally) :
    Except (Halt ScanError) ReadOutcome :=
  match tally.faults with
  | 0 =>
    match tally.refusal with
    | some cause => .error (.failure cause)
    | none => .ok ⟨tally.hits.reverse, workers, tally.failedBlocks⟩
  | 1 => .error (.failure (.workerPanicked 0))
  | _ => .error (.fault .severalWorkers)

end ReadTally

/-- How the blocks of a scan are read. -/
structure Reader where
  target : Target
  /-- Whether skipped blocks are told. -/
  tellsFailures : Bool
  maxThreads : Word
  /-- The threads that the machine runs at a time. -/
  hardwareThreads : Word

namespace Reader

/-- The number of workers for some blocks: no more than blocks, than asked for,
and than the machine runs.  At least one is asked for. -/
def workerCount (reader : Reader) (blockCount : Nat) : Nat :=
  min blockCount (min (max reader.maxThreads.toNat 1) reader.hardwareThreads.toNat)

variable {Cause : Type}

/-- Tell about a skipped block if that is wanted. -/
def skip (reader : Reader) (region : Region) (failure : ReadFailure) :
    Run Cause Unit :=
  if reader.tellsFailures then
    failure.tell region (reader.target.regionModule region)
  else
    pure ()

/-- Read one block and match the pattern in it; nothing if the block was
skipped. -/
def readBlock (reader : Reader) (pattern : Pattern) (region : Region)
    (block : ReadBlock) : Run Cause (Option (List Address)) := do
  match <- reader.target.readIn block.start block.length.toNat with
  | .ok bytes =>
    if bytes.length = block.length.toNat then
      let hits <- Run.ofChecked (block.placesOf pattern bytes)
      return some hits
    else
      reader.skip region (.short (UInt64.ofNat bytes.length) block.length)
      return none
  | .error cause =>
    reader.skip region (.failed cause.code?)
    return none

/-- Handle one block whose bytes are reserved.  Its region has to exist. -/
def handleBlock (reader : Reader) (pattern : Pattern) (regions : List Region)
    (block : ReadBlock) : Run Cause (Option (List Address)) :=
  match regions[block.regionIndex]? with
  | none => Run.halt .outOfRange
  | some region => reader.readBlock pattern region block

/-- Handle blocks in their order, behind those handled before, with a number of
workers of which each goes on to its first fault.  Reservations wait for no one
here: with nobody else to give bytes back, waiting would not end. -/
def handleBlocks (reader : Reader) (pattern : Pattern) (regions : List Region)
    (workers : Nat) (tally : ReadTally) (budget : Budget) :
    List ReadBlock -> StateM Trace (Except Fault ReadTally × Budget)
  | [] => pure (.ok tally, budget)
  | block :: rest => fun trace =>
    if workers ≤ tally.faults then
      ((.ok tally, budget), trace)
    else
      match budget.acquire block.length with
      | .error (.failure cause) =>
        ((.ok { tally with refusal := some cause }, budget), trace)
      | .error (.fault _) =>
        reader.handleBlocks pattern regions workers tally.addFault budget rest trace
      | .ok .wait => ((.error .stalled, budget), trace)
      | .ok (.granted held) =>
        let released := held.release block.length
        match (reader.handleBlock pattern regions block : Run ScanError _) trace with
        | (.ok handled, later) =>
          reader.handleBlocks pattern regions workers (tally.add handled) released
            rest later
        | (.error _, later) =>
          reader.handleBlocks pattern regions workers tally.addFault released
            rest later

/-- Read and match all blocks under a budget, which is answered as well. -/
def run (reader : Reader) (pattern : Pattern) (regions : List Region)
    (blocks : List ReadBlock) (budget : Budget) :
    StateM Trace (Except (Halt ScanError) ReadOutcome × Budget) := do
  let workers := reader.workerCount blocks.length
  if workers = 0 then
    return (.ok ⟨[], 0, 0⟩, budget)
  let capacity := (longestBlock? blocks).getD 0
  match Arena.make (UInt64.ofNat workers) capacity with
  | .error cause => return (.error (.failure cause), budget)
  | .ok _ =>
    let (answer, later) <-
      reader.handleBlocks pattern regions workers {} budget blocks
    match answer with
    | .error kind => return (.error (.fault kind), later)
    | .ok tally => return (tally.outcome workers, later)

end Reader

end MemoryProbe
