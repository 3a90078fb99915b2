import MemoryProbe.Search.Error

namespace MemoryProbe

/-!
The byte budget of a scan.  Whoever reads a block first reserves its bytes and
gives them back afterwards; a reservation that does not fit has to wait, and
one that could never fit is refused.  The ledger is a budget together with the
reservations made from it.
-/

/-- Bytes in use, the most that were ever in use, and the ceiling of both. -/
structure Budget where
  ceiling : Word
  used : Word := 0
  peak : Word := 0
deriving DecidableEq, Repr

namespace Budget

/-- The answer to a reservation. -/
inductive Admission where
  | granted (budget : Budget)
  | wait
deriving DecidableEq, Repr

/-- The budget with some bytes in use and the peak raised to them. -/
def withUsed (budget : Budget) (used : Word) : Budget :=
  { budget with used := used, peak := max budget.peak used }

/-- Reserve bytes.  More than the ceiling is refused. -/
def acquire (budget : Budget) (bytes : Word) :
    Except (Halt ScanError) Admission :=
  if budget.ceiling < bytes then
    .error (.failure (.budgetExceeded bytes budget.ceiling))
  else do
    let used <- Word.sum budget.used bytes
    return if budget.ceiling < used then .wait else .granted (budget.withUsed used)

/-- Give bytes back. -/
def release (budget : Budget) (bytes : Word) : Budget :=
  { budget with used := Word.saturatingSub budget.used bytes }

/-- A budget with its reservations, in the order in which they were granted.  A
reservation that was given back leaves an empty place. -/
structure Ledger where
  budget : Budget
  reservations : List (Option Word) := []
deriving DecidableEq, Repr

namespace Ledger

/-- How a request for bytes came out. -/
inductive Outcome where
  /-- The bytes fitted at once. -/
  | granted
  /-- The bytes fitted after another reservation was given back. -/
  | grantedAfterWaiting
  /-- The bytes did not fit; nothing was reserved. -/
  | blocked
deriving DecidableEq, Repr

/-- Add a granted reservation. -/
def record (ledger : Ledger) (budget : Budget) (bytes : Word) : Ledger where
  budget := budget
  reservations := ledger.reservations ++ [some bytes]

/-- Give a reservation back: whether it was still held.  There has to be a
reservation of that number. -/
def release (ledger : Ledger) (index : Nat) : Except Fault (Bool × Ledger) :=
  match ledger.reservations[index]? with
  | none => .error .outOfRange
  | some none => .ok (false, ledger)
  | some (some bytes) =>
    .ok (true,
      { budget := ledger.budget.release bytes
        reservations := ledger.reservations.set index none })

/-- Reserve bytes if they fit. -/
def acquire (ledger : Ledger) (bytes : Word) :
    Except (Halt ScanError) (Outcome × Ledger) := do
  match <- ledger.budget.acquire bytes with
  | .granted budget => return (.granted, ledger.record budget bytes)
  | .wait => return (.blocked, ledger)

/-- Reserve bytes while the holder of another reservation gives it back.  If
they fit at once the other reservation is kept, and if they do not fit even
afterwards nothing changes. -/
def acquireWhileReleasing (ledger : Ledger) (bytes : Word) (index : Nat) :
    Except (Halt ScanError) (Outcome × Ledger) := do
  match <- ledger.budget.acquire bytes with
  | .granted budget => return (.granted, ledger.record budget bytes)
  | .wait =>
    let (_, released) <- (ledger.release index : Except Fault (Bool × Ledger))
    match <- released.budget.acquire bytes with
    | .granted budget => return (.grantedAfterWaiting, released.record budget bytes)
    | .wait => return (.blocked, ledger)

/-- Give every reservation back. -/
def releaseAll (ledger : Ledger) : Budget :=
  ledger.reservations.foldl
    (fun budget reservation =>
      reservation.elim budget fun bytes => budget.release bytes)
    ledger.budget

end Ledger

end Budget

end MemoryProbe
