namespace MemoryProbe

/-!
Steps one after the other, in the order of a list.  What a step keeps, all steps
keep, and what a step uses up bounds their number.
-/

variable {State Choice : Type} {step : State -> Choice -> Option State}
  {choices : List Choice} {first last : State}

/-- What every step keeps, every sequence of steps keeps. -/
theorem foldlM_induction (holds : State -> Prop)
    (keeps : forall state choice next, holds state -> step state choice = some next ->
      holds next)
    (begins : holds first) (followed : choices.foldlM step first = some last) :
    holds last := by
  induction choices generalizing first with
  | nil =>
      rw [List.foldlM_nil, Option.pure_def, Option.some.injEq] at followed
      exact followed ▸ begins
  | cons choice choices ih =>
      rw [List.foldlM_cons, Option.bind_eq_bind, Option.bind_eq_some_iff] at followed
      rcases followed with ⟨next, stepped, rest⟩
      exact ih (keeps first choice next begins stepped) rest

/-- Steps that each use up some potential come out of the potential. -/
theorem length_add_le_of_foldlM (potential : State -> Nat)
    (spends : forall state choice next, step state choice = some next ->
      potential next < potential state)
    (followed : choices.foldlM step first = some last) :
    choices.length + potential last ≤ potential first := by
  induction choices generalizing first with
  | nil =>
      rw [List.foldlM_nil, Option.pure_def, Option.some.injEq] at followed
      exact Nat.le_of_eq (by rw [followed, List.length_nil, Nat.zero_add])
  | cons choice choices ih =>
      rw [List.foldlM_cons, Option.bind_eq_bind, Option.bind_eq_some_iff] at followed
      rcases followed with ⟨middle, stepped, rest⟩
      have less := spends first choice middle stepped
      have bound := ih rest
      rw [List.length_cons]
      omega

end MemoryProbe
