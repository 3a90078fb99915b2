import MemoryProbe.Proofs.Writing

namespace MemoryProbe

/-!
Two runs side by side.  A run follows another one if it comes to an answer wherever that one
does and fails for the same cause wherever that one fails; nothing is said of where the
leading run meets a fault.  Runs follow each other part by part.
-/

/-- Two traces differ in what was written, in the bytes that the buffer holds, and in what
was counted, of which the second one has no more. -/
structure Trace.Kindred (leader follower : Trace) : Prop where
  takes : leader.out.TakesAll
  follower_takes : follower.out.TakesAll
  diagnostics : leader.diagnostics = follower.diagnostics
  warnings : leader.warnings = follower.warnings
  reads : leader.reads = follower.reads
  buffer : leader.buffer.length = follower.buffer.length
  total : follower.histogram.total ≤ leader.histogram.total

/-- Traces stay kindred whatever is written. -/
theorem Trace.Kindred.writing {leader follower : Trace} (near : leader.Kindred follower)
    {sink drain : Sink} (takes : sink.TakesAll) (drains : drain.TakesAll) :
    Trace.Kindred { leader with out := sink } { follower with out := drain } :=
  { near with takes := takes, follower_takes := drains }

namespace Run

variable {Cause Answer Result Later Other : Type}

/-- What a run may come to besides a leading one: to some answer if that one does, or to the
same failure.  Nothing is asked of it where the leading run meets a fault. -/
inductive Beside : Except (Halt Cause) Answer × Trace -> Except (Halt Cause) Result × Trace ->
    Prop where
  | answers {answer : Answer} {result : Result} {later after : Trace}
    (near : later.Kindred after) : Beside (.ok answer, later) (.ok result, after)
  | fails {cause : Cause} {later after : Trace} :
    Beside (.error (.failure cause), later) (.error (.failure cause), after)
  | faults {kind : Fault} {later : Trace} {outcome : Except (Halt Cause) Result × Trace} :
    Beside (.error (.fault kind), later) outcome

/-- From kindred traces, the one run comes to an answer and a kindred trace where the other
one comes to an answer, and fails where that one fails. -/
def Follows (leader : Run Cause Answer) (follower : Run Cause Result) : Prop :=
  forall trace other, trace.Kindred other -> Beside (leader trace) (follower other)

/-- A run comes to that answer from some trace. -/
def MayAnswer (part : Run Cause Answer) (answer : Answer) : Prop :=
  ∃ trace later, part trace = (.ok answer, later)

namespace Follows

variable {leader : Run Cause Answer} {follower : Run Cause Result}

theorem pure (answer : Answer) (result : Result) :
    Follows (Pure.pure answer : Run Cause Answer) (Pure.pure result) :=
  fun _ _ near => .answers near

/-- Runs that follow each other may be followed by others that do so for every answer of the
first ones. -/
theorem bind {rest : Answer -> Run Cause Later} {others : Result -> Run Cause Other}
    (first : leader.Follows follower)
    (second : forall answer result, leader.MayAnswer answer -> follower.MayAnswer result ->
      (rest answer).Follows (others result)) :
    (leader >>= rest).Follows (follower >>= others) := by
  intro trace other near
  have began := first trace other near
  rcases ran : leader trace with ⟨given, middle⟩
  rcases followed : follower other with ⟨found, between⟩
  rw [ran, followed] at began
  cases began with
  | answers close =>
      rw [bind_of_ok ran, bind_of_ok followed]
      exact second _ _ ⟨trace, middle, ran⟩ ⟨other, between, followed⟩ middle between close
  | fails =>
      rw [bind_of_error ran, bind_of_error followed]
      exact .fails
  | faults =>
      rw [bind_of_error ran]
      exact .faults

variable {trace other later : Trace}

theorem exists_of_ok (follows : leader.Follows follower) (near : trace.Kindred other)
    {answer : Answer} (ran : leader trace = (.ok answer, later)) :
    ∃ result after, follower other = (.ok result, after) ∧ later.Kindred after := by
  have besides := follows trace other near
  rcases followed : follower other with ⟨found, after⟩
  rw [ran, followed] at besides
  cases besides with
  | answers close => exact ⟨_, after, rfl, close⟩

theorem exists_of_failure (follows : leader.Follows follower) (near : trace.Kindred other)
    {cause : Cause} (stopped : leader trace = (.error (.failure cause), later)) :
    ∃ after, follower other = (.error (.failure cause), after) := by
  have besides := follows trace other near
  rcases followed : follower other with ⟨found, after⟩
  rw [stopped, followed] at besides
  cases besides with
  | fails => exact ⟨after, rfl⟩

end Follows

/-- Parts that only print follow each other. -/
theorem Prints.follows {part : Run Cause Answer} {other : Run Cause Result} {answer : Answer}
    {result : Result} (prints : part.Prints answer) (also : other.Prints result) :
    part.Follows other := by
  intro trace after near
  rcases prints.answers near.takes with ⟨sink, answered, takes⟩
  rcases also.answers near.follower_takes with ⟨drain, followed, drains⟩
  rw [answered, followed]
  exact .answers (near.writing takes drains)

theorem Prints.follows_self {part : Run Cause Answer} {answer : Answer}
    (prints : part.Prints answer) : part.Follows part :=
  prints.follows prints

end Run
end MemoryProbe
