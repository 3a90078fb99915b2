import MemoryProbe.Proofs.Pool.Mirroring
import MemoryProbe.Proofs.Search.Reading

namespace MemoryProbe

/-!
The orders in which the planned blocks of a scan can be read: one reader handles them in
turn, or a pool of workers takes the steps of a schedule.  Workers may miss the sign to give
up.  With an order in hand a read phase is a function, so two scans can be compared that
differ in nothing but their output, their diagnostics, or whether they tell.
-/

/-- The order in which blocks are read. -/
inductive ReadOrder where
  /-- One reader handles the blocks in turn. -/
  | inTurn
  /-- The workers of a pool take steps in the order of a schedule, which says of each step
  whether its worker knows of the sign to give up. -/
  | abreast (schedule : List (Nat × Bool))
deriving DecidableEq, Repr

/-- Let a pool take the steps of a schedule.  A schedule that does not bring all workers to
their end leaves the scan where it is. -/
def PoolWork.abreast (work : PoolWork) (budget : Budget) (schedule : List (Nat × Bool)) :
    Run ScanError ReadOutcome := fun trace =>
  let workers := work.reader.workerCount work.blocks.length
  if workers = 0 then
    (.ok ⟨[], 0, 0⟩, trace)
  else
    match Pool.start work (UInt64.ofNat workers) budget trace with
    | .error cause => (.error (.failure cause), trace)
    | .ok first =>
      match (first.drift work schedule).filter Pool.isDone with
      | none => (.error (.fault .stalled), trace)
      | some last => (last.answer work, last.trace)

theorem PoolWork.mirrors_abreast {work : PoolWork} {tells : Bool} {change : Trace -> Trace}
    {arises : ReadFailure -> Prop} (through : work.reader.TellsThrough tells change arises)
    (budget : Budget) (schedule : List (Nat × Bool)) :
    Mirrors change (work.abreast budget schedule)
      ((work.telling tells).abreast budget schedule) := by
  intro trace
  have crew : (work.telling tells).reader.workerCount (work.telling tells).blocks.length =
      work.reader.workerCount work.blocks.length := rfl
  unfold abreast
  rw [crew]
  dsimp only
  by_cases unmanned : work.reader.workerCount work.blocks.length = 0
  · rw [if_pos unmanned, if_pos unmanned]
  · rw [if_neg unmanned, if_neg unmanned, Pool.start_retrace]
    rcases started : Pool.start work
      (UInt64.ofNat (work.reader.workerCount work.blocks.length)) budget trace with cause | first
    · rfl
    · have drifts := Pool.drift_retrace through schedule (Pool.tellsOf_start started)
      rw [Except.map]
      dsimp only
      rw [drifts]
      rcases first.drift work schedule with _ | last
      · rfl
      · have ends : (last.retrace change).isDone = last.isDone := rfl
        rw [Option.map_some, Option.filter_some, Option.filter_some, ends]
        cases last.isDone <;> rfl

namespace Scanner

/-- Read the planned blocks in some order. -/
def readsIn (scanner : Scanner) : ReadOrder -> ReadPhase
  | .inTurn => scanner.readBlocks
  | .abreast schedule => fun pattern regions blocks =>
    PoolWork.abreast ⟨scanner.reader, pattern, regions, blocks⟩ scanner.budget schedule

variable {scanner : Scanner}

/-- A scanner that tells about the blocks it skips, or does not. -/
def telling (scanner : Scanner) (tells : Bool) : Scanner :=
  { scanner with tellsFailures := tells }

section Mirroring

variable {tells : Bool} {change : Trace -> Trace} {arises : ReadFailure -> Prop}
  (through : scanner.reader.TellsThrough tells change arises)

include through

theorem mirrors_readBlocks (pattern : Pattern) (regions : List Region) (blocks : List ReadBlock) :
    Mirrors change (scanner.readBlocks pattern regions blocks)
      ((scanner.telling tells).readBlocks pattern regions blocks) := by
  intro trace
  have ran := through.run pattern regions blocks scanner.budget trace
  have same : (scanner.telling tells).reader = scanner.reader.telling tells := rfl
  have held : (scanner.telling tells).budget = scanner.budget := rfl
  unfold readBlocks
  rw [same, held, ran]
  rfl

/-- Blocks that are read in one order come to the same from a changed trace. -/
theorem mirrors_readsIn (order : ReadOrder) (pattern : Pattern) (regions : List Region)
    (blocks : List ReadBlock) :
    Mirrors change (scanner.readsIn order pattern regions blocks)
      ((scanner.telling tells).readsIn order pattern regions blocks) := by
  cases order with
  | inTurn => exact mirrors_readBlocks through pattern regions blocks
  | abreast schedule =>
      exact @PoolWork.mirrors_abreast ⟨scanner.reader, pattern, regions, blocks⟩ _ _ _ through
        scanner.budget schedule

end Mirroring

end Scanner
end MemoryProbe
