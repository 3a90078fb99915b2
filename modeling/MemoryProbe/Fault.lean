namespace MemoryProbe

/-!
How a computation can end without an answer.  A failure is a cause that the
caller can name and print.  A fault is a broken assumption of the program
itself: it has no text, and nothing after it runs.
-/

/-- The assumptions whose breach stops a computation. -/
inductive Fault where
  /-- An unsigned result left the range of its machine word. -/
  | overflow
  /-- An index or a slice bound lay outside its sequence. -/
  | outOfRange
  /-- A lone worker waited for room that only it could give back. -/
  | stalled
  /-- More than one worker of a pool met a fault. -/
  | severalWorkers
deriving DecidableEq, Repr, Inhabited

/-- A computation stops with a nameable cause or with a fault. -/
inductive Halt (Cause : Type) where
  | failure (cause : Cause)
  | fault (kind : Fault)
deriving DecidableEq, Repr

namespace Halt

/-- Rename the cause of a failure; a fault stays as it is. -/
def mapCause {Cause Wider : Type} (widen : Cause -> Wider) :
    Halt Cause -> Halt Wider
  | .failure cause => .failure (widen cause)
  | .fault kind => .fault kind

end Halt

/-- An answer that is made of another one comes from that one. -/
theorem exists_of_bind_ok {Cause First Later : Type} {first : Except Cause First}
    {rest : First -> Except Cause Later} {result : Later}
    (answered : first >>= rest = .ok result) :
    ∃ middle, first = .ok middle ∧ rest middle = .ok result := by
  cases first with
  | error cause => contradiction
  | ok middle => exact ⟨middle, rfl, answered⟩

/-- A computation that can only fault also runs where failures are allowed. -/
instance {Cause : Type} : MonadLift (Except Fault) (Except (Halt Cause)) where
  monadLift
    | .ok value => .ok value
    | .error kind => .error (.fault kind)

end MemoryProbe
