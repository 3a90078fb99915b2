import MemoryProbe.Proofs.Following

namespace MemoryProbe

/-!
Two parts side by side of which the second one starts from a changed trace.  It mirrors the
first one if it comes to the same result, and to the same trace but for the same change.
What a part mirrors itself through is a change that it does not see.
-/

/-- A part comes to the same result from the changed trace, and leaves what the other one
leaves, changed. -/
def Mirrors {Result : Type} (change : Trace -> Trace)
    (part other : Trace -> Result × Trace) : Prop :=
  forall trace, other (change trace) = ((part trace).1, change (part trace).2)

/-- A part that neither asks the output for anything nor looks at it. -/
def Silent {Result : Type} (part : Trace -> Result × Trace) : Prop :=
  forall sink, Mirrors (fun trace => { trace with out := sink }) part part

namespace Mirrors

variable {Result Cause Answer Later : Type} {change : Trace -> Trace}

theorem of_eq {part other : Trace -> Result × Trace} {trace later : Trace} {result : Result}
    (mirrors : Mirrors change part other) (ran : part trace = (result, later)) :
    other (change trace) = (result, change later) := by
  rw [mirrors trace, ran]

theorem const {part : Trace -> Result × Trace} (result : Result)
    (same : forall trace, part trace = (result, trace)) : Mirrors change part part := by
  intro trace
  rw [same, same]

/-- Parts mirror others one after the other. -/
theorem bind {part other : Run Cause Answer} {rest others : Answer -> Run Cause Later}
    (first : Mirrors change part other)
    (second : forall answer, part.MayAnswer answer ->
      Mirrors change (rest answer) (others answer)) :
    Mirrors change (part >>= rest) (other >>= others) := by
  intro trace
  rcases ran : part trace with ⟨stop | answer, middle⟩
  · rw [Run.bind_of_error ran, Run.bind_of_error (first.of_eq ran)]
  · rw [Run.bind_of_ok ran, Run.bind_of_ok (first.of_eq ran),
      second answer ⟨trace, middle, ran⟩ middle]

end Mirrors

namespace Silent

variable {Cause Answer Later : Type}

theorem bind {part : Run Cause Answer} {rest : Answer -> Run Cause Later}
    (first : Silent part) (second : forall answer, Silent (rest answer)) :
    Silent (part >>= rest) :=
  fun sink => (first sink).bind fun answer _ => second answer sink

theorem pure (answer : Answer) : Silent (Pure.pure answer : Run Cause Answer) :=
  fun _ => .const (.ok answer) fun _ => rfl

theorem readIn (target : Target) (address : Address) (length : Nat) :
    Silent (target.readIn address length : Run Cause _) :=
  fun _ _ => rfl

end Silent
end MemoryProbe
