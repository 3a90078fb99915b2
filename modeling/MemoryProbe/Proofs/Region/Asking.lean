import MemoryProbe.Proofs.Region.Course
import MemoryProbe.Region.Enumeration

namespace MemoryProbe

/-!
Surveys that are asked region by region.  Each question makes the next of the queries
ahead and takes the next of the regions ahead, so the questions together make the queries
of the whole survey, and none beyond them.
-/

namespace Enumeration

variable {query : Address -> Except (Halt MemoryError) (Option Region)}
  {enumeration : Enumeration}

/-- The queries that an enumeration has still to make. -/
def ahead (query : Address -> Except (Halt MemoryError) (Option Region))
    (enumeration : Enumeration) : List Visit :=
  enumeration.cursor.elim [] (visitsFrom query)

theorem next_of_ended (ends : enumeration.cursor = none) :
    enumeration.next query = ⟨[], .ok none, enumeration⟩ := by
  rw [next]
  split
  · rfl
  · rename_i address other
    rw [ends] at other
    contradiction

theorem next_of_cursor {address : Address} (here : enumeration.cursor = some address) :
    enumeration.next query =
      match query address with
      | .error (.fault kind) => ⟨[⟨address, query address⟩], .error kind, enumeration⟩
      | .error (.failure _) => ⟨[⟨address, query address⟩], .ok none, enumeration.ended⟩
      | .ok none => ⟨[⟨address, query address⟩], .ok none, enumeration.ended⟩
      | .ok (some region) =>
        let later := { enumeration with cursor := region.next? address }
        if enumeration.survey.keeps region then
          ⟨[⟨address, query address⟩], .ok (some region), later⟩
        else
          let reply := next query later
          { reply with visits := ⟨address, query address⟩ :: reply.visits } := by
  rw [next]
  split
  · rename_i ends
    rw [here] at ends
    contradiction
  · rename_i other there
    rw [here, Option.some.injEq] at there
    subst there
    rfl

theorem ahead_of_cursor {address : Address} (here : enumeration.cursor = some address) :
    enumeration.ahead query = ⟨address, query address⟩ ::
      (⟨address, query address⟩ : Visit).next?.elim [] (visitsFrom query) := by
  rw [ahead, here, Option.elim_some, visitsFrom_cons]

/-- What one question does: it makes the first of the queries ahead, and either it comes
to the first of the regions ahead or there is none. -/
theorem next_spec (calm : forall address kind, query address ≠ .error (.fault kind))
    (enumeration : Enumeration) :
    enumeration.ahead query =
        (enumeration.next query).visits ++ (enumeration.next query).later.ahead query ∧
      (enumeration.next query).later.survey = enumeration.survey ∧
      ((∃ region, (enumeration.next query).answer = .ok (some region) ∧
          enumeration.survey.found (enumeration.next query).visits = [region]) ∨
        (enumeration.next query).answer = .ok none ∧
          enumeration.survey.found (enumeration.next query).visits = [] ∧
          (enumeration.next query).later.cursor = none) := by
  induction enumeration using next.induct query with
  | case1 enumeration ends =>
      rw [next_of_ended ends]
      refine ⟨?_, rfl, Or.inr ⟨rfl, rfl, ends⟩⟩
      rw [ahead, ends]
      rfl
  | case2 enumeration address here answer kind fault => exact absurd fault (calm address kind)
  | case3 enumeration address here answer cause failed =>
      change query address = _ at failed
      rw [next_of_cursor here, ahead_of_cursor here, failed]
      exact ⟨rfl, rfl, Or.inr ⟨rfl, rfl, rfl⟩⟩
  | case4 enumeration address here answer nothing =>
      change query address = _ at nothing
      rw [next_of_cursor here, ahead_of_cursor here, nothing]
      exact ⟨rfl, rfl, Or.inr ⟨rfl, rfl, rfl⟩⟩
  | case5 enumeration address here answer region answered kept =>
      change query address = _ at answered
      rw [next_of_cursor here, ahead_of_cursor here, answered]
      simp only [if_pos kept]
      refine ⟨rfl, trivial, Or.inl ⟨region, rfl, ?_⟩⟩
      simp [kept, Survey.found]
  | case6 enumeration address here answer region answered later left ih =>
      change query address = _ at answered
      rw [next_of_cursor here, ahead_of_cursor here, answered]
      simp only [if_neg left]
      rcases ih with ⟨rest, same, comes⟩
      have passed : forall visits : List Visit, enumeration.survey.found
          (⟨address, .ok (some region)⟩ :: visits) = enumeration.survey.found visits := by
        intro visits
        simp [found_cons, left]
      simp only [passed]
      exact ⟨congrArg _ rest, same, comes⟩

theorem after_of_ended (ends : enumeration.cursor = none) (count : Nat) :
    enumeration.after query count = enumeration := by
  induction count with
  | zero => rfl
  | succ count ih => rw [after, next_of_ended ends, ih]

theorem ahead_of_ended (ends : enumeration.cursor = none) : enumeration.ahead query = [] := by
  rw [ahead, ends, Option.elim_none]

section Asking

variable (calm : forall address kind, query address ≠ .error (.fault kind))

include calm

/-- A question either takes the first of the regions ahead, or nothing is ahead of it and
behind it. -/
theorem next_cases (enumeration : Enumeration) :
    (∃ region, (enumeration.next query).answer = .ok (some region) ∧
        enumeration.survey.found (enumeration.ahead query) =
          region :: (enumeration.next query).later.survey.found
            ((enumeration.next query).later.ahead query)) ∨
      (enumeration.next query).answer = .ok none ∧
        enumeration.survey.found (enumeration.ahead query) = [] ∧
        (enumeration.next query).later.cursor = none := by
  rcases next_spec calm enumeration with
    ⟨split, same, ⟨region, comes, found⟩ | ⟨nothing, found, ends⟩⟩
  · refine Or.inl ⟨region, comes, ?_⟩
    rw [split, same, found_append, found]
    rfl
  · refine Or.inr ⟨nothing, ?_, ends⟩
    rw [split, found_append, found, ahead_of_ended ends]
    rfl

/-- The answer to each question is the next of the regions ahead, as long as there is
one. -/
theorem answer_after (enumeration : Enumeration) (count : Nat) :
    ((enumeration.after query count).next query).answer =
      .ok (enumeration.survey.found (enumeration.ahead query))[count]? := by
  induction count generalizing enumeration with
  | zero =>
      rcases next_cases calm enumeration with
        ⟨region, comes, found⟩ | ⟨nothing, found, -⟩
      · rw [after, comes, found, List.getElem?_cons_zero]
      · rw [after, nothing, found, List.getElem?_nil]
  | succ count ih =>
      rw [after]
      rcases next_cases calm enumeration with ⟨region, -, found⟩ | ⟨-, found, ends⟩
      · rw [ih, found, List.getElem?_cons_succ]
      · rw [after_of_ended ends, next_of_ended ends, found, List.getElem?_nil]

/-- The questions make the queries ahead, in their order. -/
theorem ahead_eq_flatMap_append (enumeration : Enumeration) (count : Nat) :
    enumeration.ahead query =
      ((List.range count).flatMap fun index =>
          ((enumeration.after query index).next query).visits) ++
        (enumeration.after query count).ahead query := by
  induction count generalizing enumeration with
  | zero => rfl
  | succ count ih =>
      rw [List.range_succ_eq_map, List.flatMap_cons, List.flatMap_map, List.append_assoc]
      exact (next_spec calm enumeration).1.trans (congrArg _ (ih _))

/-- The question behind the last region ends the enumeration. -/
theorem cursor_after (enumeration : Enumeration) {count : Nat}
    (enough : (enumeration.survey.found (enumeration.ahead query)).length < count) :
    (enumeration.after query count).cursor = none := by
  induction count generalizing enumeration with
  | zero => exact absurd enough (Nat.not_lt_zero _)
  | succ count ih =>
      rw [after]
      rcases next_cases calm enumeration with ⟨region, -, found⟩ | ⟨-, -, ends⟩
      · rw [found, List.length_cons] at enough
        exact ih _ (Nat.lt_of_succ_lt_succ enough)
      · rw [after_of_ended ends, ends]

end Asking

end Enumeration

/-! ## The whole survey -/

/-- A survey of a process, whatever its queries answer, comes to an end.  Its queries
begin at zero, each later one is at the end of the region answered before and above the
query of that region, and it stops at the first answer that leads no further: nothing, a
failure, or a region that is empty or does not end above the query.  It finds the answered
regions that it keeps, in the order of the queries, and warns once if a failure ended it.
An enumeration that is asked region by region comes to the same regions by the same
queries, and to nothing by none afterwards. -/
theorem Survey.survey_rises_and_ends {Cause : Type} (survey : Survey) (target : Target)
    (calm : forall address kind, target.query address ≠ .error (.fault kind))
    (trace : Trace) :
    let visits := visitsFrom target.query Address.zero
    let found := (visits.filterMap Visit.region?).filter survey.keeps
    let asked := Enumeration.after target.query { survey := survey }
    visits.head?.map Visit.address = some Address.zero ∧
      (forall visit, visit ∈ visits -> visit.answer = target.query visit.address) ∧
      (forall (index : Nat) (visit later : Visit), visits[index]? = some visit ->
        visits[index + 1]? = some later ->
        ∃ region, visit.answer = .ok (some region) ∧ region.size ≠ 0 ∧
          later.address = region.stop ∧ visit.address < later.address) ∧
      (visits.map Visit.address).Nodup ∧ visits.length ≤ UInt64.size ∧
      (∃ front last, visits = front ++ [last] ∧
        (last.answer = .ok none ∨ (∃ cause, last.answer = .error (.failure cause)) ∨
          ∃ region, last.answer = .ok (some region) ∧
            (region.size = 0 ∨ region.stop ≤ last.address)) ∧
        (forall visit, visit ∈ front -> ∃ region, visit.answer = .ok (some region) ∧
          region.size ≠ 0 ∧ visit.address < region.stop) ∧
        (survey.run target : Run Cause (List Region)) trace =
          (.ok found, { trace with warnings := trace.warnings ++
            match last.answer with
            | .error (.failure cause) =>
              ["Region enumeration of pid " ++ toString target.pid.toNat ++ " stopped: "
                ++ cause.message]
            | _ => [] })) ∧
      (forall count, ((asked count).next target.query).answer = .ok found[count]?) ∧
      (forall count, found.length < count ->
        ((List.range count).flatMap fun index => ((asked index).next target.query).visits) =
            visits ∧
          ((asked count).next target.query).visits = []) := by
  intro visits found asked
  have course : Course target.query Address.zero visits := course_visitsFrom _ _
  have same : survey.found visits = found := found_eq_filter survey visits
  have ahead : ({ survey := survey } : Enumeration).ahead target.query = visits := rfl
  refine ⟨?_, fun visit member => course.answer_eq member, ?_, course.nodup,
    course.length_add_le, ?_, ?_, ?_⟩
  · rw [course.head?_eq]
    rfl
  · intro index visit later here follows
    rcases Visit.next?_eq_some_iff.mp (course.leads here follows) with
      ⟨region, answered, some, ends, above⟩
    exact ⟨region, answered, some, ends, above⟩
  · rcases course.exists_last with ⟨front, last, split, stays, leading⟩
    have member : last ∈ visits := split ▸ List.mem_append_right _ (List.mem_singleton_self _)
    refine ⟨front, last, split, ?_, ?_, ?_⟩
    · rcases Visit.next?_eq_none_iff.mp stays with nothing | ⟨stop, failed⟩ | final
      · exact Or.inl nothing
      · cases stop with
        | failure cause => exact Or.inr (Or.inl ⟨cause, failed⟩)
        | fault kind =>
            rw [course.answer_eq member] at failed
            exact absurd failed (calm last.address kind)
      · exact Or.inr (Or.inr final)
    · intro visit earlier
      rcases leading visit earlier with ⟨next, leads⟩
      rcases Visit.next?_eq_some_iff.mp leads with ⟨region, answered, some, rfl, above⟩
      exact ⟨region, answered, some, above⟩
    · have warned := warnings_of_last last target.pid leading
      rw [<- split] at warned
      rw [run_of_calm survey calm trace, <- same, warned]
      rcases last with ⟨address, stop | answer⟩
      · cases stop <;> rfl
      · rfl
  · intro count
    rw [<- same, <- ahead]
    exact Enumeration.answer_after calm _ count
  · intro count enough
    have ends : (asked count).cursor = none := by
      refine Enumeration.cursor_after calm _ ?_
      rw [ahead, same]
      exact enough
    refine ⟨?_, ?_⟩
    · have parts := Enumeration.ahead_eq_flatMap_append calm { survey := survey } count
      rw [ahead, Enumeration.ahead_of_ended ends, List.append_nil] at parts
      exact parts.symm
    · rw [Enumeration.next_of_ended ends]

/-- A process that answers with regions elsewhere: with a gap first, then with a region
that is too large for the address space, and not at all at the greatest address. -/
def waywardTarget : Target where
  pid := 7
  query address :=
    if address = Address.zero then
      .ok (some (Region.gap ⟨0x50⟩ 0x10))
    else if address = ⟨0x60⟩ then
      .ok (some (Region.committedPrivate ⟨0x200⟩ 0xffffffffffffffff Protection.readable))
    else
      .error (.failure (.queryFailed address 87))
  read _ address _ := .error (.readFailed address 14)
  modulePath _ := none
  imagePath := none

/-- Three queries find the one committed region of that process and warn of the failure;
the third question is answered without a query. -/
theorem Survey.survey_rises_and_ends_of_wayward :
    (forall address kind, waywardTarget.query address ≠ .error (.fault kind)) ∧
    ((visitsFrom waywardTarget.query Address.zero).map fun visit => visit.address.value) =
      [0, 0x60, 0xffffffffffffffff] ∧
    (∃ warning, (({} : Survey).run waywardTarget : Run MemoryError (List Region)) {} =
      (.ok [Region.committedPrivate ⟨0x200⟩ 0xffffffffffffffff Protection.readable],
        { warnings := [warning] })) ∧
    ((({} : Enumeration).after waywardTarget.query 1).next waywardTarget.query).answer =
      .ok none ∧
    ((({} : Enumeration).after waywardTarget.query 2).next waywardTarget.query).visits = [] := by
  have calm : forall address kind, waywardTarget.query address ≠ .error (.fault kind) := by
    intro address kind fault
    simp only [waywardTarget] at fault
    split at fault
    · cases fault
    · split at fault <;> cases fault
  have visited : visitsFrom waywardTarget.query Address.zero =
      [⟨⟨0⟩, waywardTarget.query ⟨0⟩⟩, ⟨⟨0x60⟩, waywardTarget.query ⟨0x60⟩⟩,
        ⟨⟨0xffffffffffffffff⟩, waywardTarget.query ⟨0xffffffffffffffff⟩⟩] := by
    have first : (⟨Address.zero, waywardTarget.query Address.zero⟩ : Visit).next? =
        some ⟨0x60⟩ := by decide
    have second : (⟨⟨0x60⟩, waywardTarget.query ⟨0x60⟩⟩ : Visit).next? =
        some ⟨0xffffffffffffffff⟩ := by decide
    rw [visitsFrom_cons, first, Option.elim_some, visitsFrom_cons, second, Option.elim_some,
      visitsFrom_cons]
    rfl
  have kept : ((visitsFrom waywardTarget.query Address.zero).filterMap Visit.region?).filter
      ({} : Survey).keeps =
        [Region.committedPrivate ⟨0x200⟩ 0xffffffffffffffff Protection.readable] := by
    rw [visited]
    decide
  rcases @survey_rises_and_ends MemoryError {} waywardTarget calm {} with
    ⟨-, -, -, -, -, ⟨front, last, split, -, -, ran⟩, answers, asks⟩
  rw [kept] at ran answers asks
  rw [visited] at split ⊢
  refine ⟨calm, rfl, ?_, answers 1, (asks 2 (by decide)).2⟩
  have failed : some _ = some last :=
    (congrArg List.getLast? split).trans List.getLast?_concat
  cases failed
  exact ⟨_, ran⟩

end MemoryProbe
