import MemoryProbe.Proofs.Region.Chart
import MemoryProbe.Region.Survey

namespace MemoryProbe

/-!
The course of a survey, whatever the queries answer.  Each visit but the last leads to
the next one, at the end of the region it was answered with, and strictly upwards; so the
visits are finitely many and no address is queried twice.
-/

namespace Visit

/-- The region that a visit was answered with. -/
def region? (visit : Visit) : Option Region :=
  match visit.answer with
  | .ok found => found
  | .error _ => none

/-- Where a survey goes on after a visit. -/
def next? (visit : Visit) : Option Address :=
  visit.region?.bind fun region => region.next? visit.address

variable {visit : Visit} {next : Address}

@[simp]
theorem next?_some (address : Address) (region : Region) :
    (⟨address, .ok (some region)⟩ : Visit).next? = region.next? address :=
  rfl

/-- A visit leads to the end of its region, if the region is not empty and ends above. -/
theorem next?_eq_some_iff :
    visit.next? = some next <->
      ∃ region, visit.answer = .ok (some region) ∧ region.size ≠ 0 ∧ next = region.stop ∧
        visit.address < next := by
  rcases visit with ⟨address, stop | found⟩
  · simp [next?, region?]
  · cases found with
    | none => simp [next?, region?]
    | some region =>
        simp only [next?_some, Region.next?]
        constructor
        · intro goes
          split at goes
          · contradiction
          · rename_i stays
            rw [not_or] at stays
            rw [Option.some.injEq] at goes
            subst goes
            exact ⟨region, rfl, stays.1, rfl, UInt64.not_le.mp stays.2⟩
        · rintro ⟨other, same, some, rfl, above⟩
          cases same
          refine if_neg ?_
          rintro (empty | past)
          · exact some empty
          · exact absurd past (UInt64.not_le.mpr above)

/-- A survey ends where nothing is answered, where the query does not succeed, and at a
region that does not lead upwards. -/
theorem next?_eq_none_iff :
    visit.next? = none <->
      visit.answer = .ok none ∨ (∃ stop, visit.answer = .error stop) ∨
        ∃ region, visit.answer = .ok (some region) ∧
          (region.size = 0 ∨ region.stop ≤ visit.address) := by
  rcases visit with ⟨address, stop | found⟩
  · simp [next?, region?]
  · cases found with
    | none => simp [next?, region?]
    | some region =>
        simp only [next?_some, Region.next?]
        constructor
        · intro stays
          split at stays
          · rename_i ends
            exact Or.inr (Or.inr ⟨region, rfl, ends⟩)
          · contradiction
        · rintro (nothing | ⟨stop, failed⟩ | ⟨other, same, ends⟩)
          · cases nothing
          · cases failed
          · cases same
            exact if_pos ends

end Visit

variable {survey : Survey}

/-- What a survey finds are the answered regions that it keeps. -/
theorem found_eq_filter (survey : Survey) (visits : List Visit) :
    survey.found visits = (visits.filterMap Visit.region?).filter survey.keeps := by
  simp only [Survey.found, List.filter_filterMap]
  refine congrArg (fun answer => visits.filterMap answer) (funext fun visit => ?_)
  rcases visit with ⟨address, stop | found⟩
  · rfl
  · cases found <;> simp [Visit.region?, Option.filter]

/-- A region that is found comes first, and what is found later behind it. -/
theorem found_cons (visit : Visit) (visits : List Visit) :
    survey.found (visit :: visits) =
      (match visit.answer with
        | .ok (some region) => if survey.keeps region then [region] else []
        | _ => []) ++ survey.found visits := by
  simp only [Survey.found, List.filterMap_cons]
  cases visit.answer with
  | error stop => rfl
  | ok answer =>
      cases answer with
      | none => rfl
      | some region =>
          dsimp only
          by_cases kept : survey.keeps region = true
          · rw [if_pos kept, if_pos kept]
            rfl
          · rw [if_neg kept, if_neg kept]
            rfl

theorem found_append (visits later : List Visit) :
    survey.found (visits ++ later) = survey.found visits ++ survey.found later :=
  List.filterMap_append

/-- A course of visits from an address, each of which leads to the next one. -/
inductive Course (query : Address -> Except (Halt MemoryError) (Option Region)) :
    Address -> List Visit -> Prop where
  | last (address : Address) (stays : (⟨address, query address⟩ : Visit).next? = none) :
    Course query address [⟨address, query address⟩]
  | onward (address next : Address) (visits : List Visit)
    (leads : (⟨address, query address⟩ : Visit).next? = some next)
    (rest : Course query next visits) :
    Course query address (⟨address, query address⟩ :: visits)

section Course

variable {query : Address -> Except (Halt MemoryError) (Option Region)} {address : Address}
  {visits : List Visit}

/-- The visits from an address: the one there, and those from where it leads. -/
theorem visitsFrom_cons (query : Address -> Except (Halt MemoryError) (Option Region))
    (address : Address) :
    visitsFrom query address = ⟨address, query address⟩ ::
      (⟨address, query address⟩ : Visit).next?.elim [] (visitsFrom query) := by
  conv =>
    lhs
    unfold visitsFrom
  cases query address with
  | error stop => rfl
  | ok found =>
      cases found with
      | none => rfl
      | some region =>
          simp only [Visit.next?_some]
          split
          · rename_i next leads
            simp only [leads, Option.elim_some]
          · rename_i stays
            simp only [stays, Option.elim_none]

/-- The visits from an address are a course. -/
theorem course_visitsFrom (query : Address -> Except (Halt MemoryError) (Option Region))
    (address : Address) : Course query address (visitsFrom query address) := by
  induction address using visitsFrom.induct query with
  | case1 address answer region answered next leads ih =>
      have goes : (⟨address, query address⟩ : Visit).next? = some next := by
        change query address = .ok (some region) at answered
        rw [answered, Visit.next?_some, leads]
      rw [visitsFrom_cons, goes]
      exact .onward address next _ goes ih
  | case2 address answer region answered stays =>
      have ends : (⟨address, query address⟩ : Visit).next? = none := by
        change query address = .ok (some region) at answered
        rw [answered, Visit.next?_some, stays]
      rw [visitsFrom_cons, ends]
      exact .last address ends
  | case3 address answer none =>
      have ends : (⟨address, query address⟩ : Visit).next? = Option.none := by
        refine Visit.next?_eq_none_iff.mpr ?_
        cases answered : query address with
        | error stop => exact Or.inr (Or.inl ⟨stop, rfl⟩)
        | ok found =>
            cases found with
            | none => exact Or.inl rfl
            | some region => exact absurd answered (none region)
      rw [visitsFrom_cons, ends]
      exact .last address ends

namespace Course

variable (course : Course query address visits)

include course

/-- The first query is at the address where the course begins. -/
theorem head?_eq : visits.head? = some ⟨address, query address⟩ := by
  cases course <;> rfl

theorem answer_eq {visit : Visit} (member : visit ∈ visits) :
    visit.answer = query visit.address := by
  induction course with
  | last address stays => rw [List.mem_singleton.mp member]
  | onward address next visits leads rest ih =>
      rcases List.mem_cons.mp member with rfl | later
      · rfl
      · exact ih later

/-- Nothing below the beginning is visited. -/
theorem le_address {visit : Visit} (member : visit ∈ visits) :
    address.toNat ≤ visit.address.toNat := by
  induction course with
  | last address stays => exact Nat.le_of_eq (List.mem_singleton.mp member ▸ rfl)
  | onward address next visits leads rest ih =>
      rcases List.mem_cons.mp member with rfl | later
      · exact Nat.le_refl _
      · rcases Visit.next?_eq_some_iff.mp leads with ⟨-, -, -, -, above⟩
        exact Nat.le_trans (Nat.le_of_lt (Address.lt_iff_toNat_lt.mp above)) (ih later)

/-- The queried addresses rise. -/
theorem rising : visits.Pairwise fun visit later => visit.address < later.address := by
  induction course with
  | last address stays => exact List.pairwise_singleton _ _
  | onward address next visits leads rest ih =>
      refine List.Pairwise.cons (fun later member => ?_) ih
      rcases Visit.next?_eq_some_iff.mp leads with ⟨-, -, -, -, above⟩
      exact Address.lt_iff_toNat_lt.mpr
        (Nat.lt_of_lt_of_le (Address.lt_iff_toNat_lt.mp above) (rest.le_address member))

/-- No address is queried twice. -/
theorem nodup : (visits.map Visit.address).Nodup := by
  rw [List.Nodup, List.pairwise_map]
  apply course.rising.imp
  intro visit later rises same
  rw [same] at rises
  exact UInt64.lt_irrefl _ rises

/-- There are no more visits than addresses from the beginning on. -/
theorem length_add_le : visits.length + address.toNat ≤ UInt64.size := by
  induction course with
  | last address stays =>
      have bound : address.toNat < UInt64.size := address.value.toNat_lt
      rw [List.length_singleton]
      omega
  | onward address next visits leads rest ih =>
      rcases Visit.next?_eq_some_iff.mp leads with ⟨-, -, -, -, above⟩
      have rises := Address.lt_iff_toNat_lt.mp above
      rw [List.length_cons]
      change address.toNat < _ at rises
      omega

/-- Each visit but the last leads to the next one. -/
theorem leads {index : Nat} {visit later : Visit} (here : visits[index]? = some visit)
    (follows : visits[index + 1]? = some later) : visit.next? = some later.address := by
  induction course generalizing index with
  | last address stays => simp at follows
  | onward address next visits leads rest ih =>
      cases index with
      | zero =>
          rw [List.getElem?_cons_zero, Option.some.injEq] at here
          rw [List.getElem?_cons_succ, <- List.head?_eq_getElem?, rest.head?_eq,
            Option.some.injEq] at follows
          rw [<- here, <- follows, leads]
      | succ index =>
          rw [List.getElem?_cons_succ] at here follows
          exact ih here follows

/-- A course ends with the one visit that leads nowhere. -/
theorem exists_last :
    ∃ front last, visits = front ++ [last] ∧ last.next? = none ∧
      forall visit, visit ∈ front -> ∃ next, visit.next? = some next := by
  induction course with
  | last address stays =>
      exact ⟨[], _, rfl, stays, fun visit member => absurd member List.not_mem_nil⟩
  | onward address next visits leads rest ih =>
      rcases ih with ⟨front, last, rfl, stays, earlier⟩
      refine ⟨⟨address, query address⟩ :: front, last, rfl, stays, fun visit member => ?_⟩
      rcases List.mem_cons.mp member with rfl | later
      · exact ⟨next, leads⟩
      · exact earlier visit later

end Course

/-- Only the last visit can give a warning, because visits that lead onward succeed. -/
theorem warnings_of_last {front : List Visit} (last : Visit) (pid : UInt32)
    (leading : forall visit, visit ∈ front -> ∃ next, visit.next? = some next) :
    Survey.warnings pid (front ++ [last]) = Survey.warnings pid [last] := by
  have none : Survey.warnings pid front = [] := by
    refine List.filterMap_eq_nil_iff.mpr fun visit member => ?_
    rcases leading visit member with ⟨next, leads⟩
    rcases Visit.next?_eq_some_iff.mp leads with ⟨region, answered, -⟩
    rw [answered]
  simp only [Survey.warnings, List.filterMap_append] at none ⊢
  rw [none, List.nil_append]

variable (calm : forall address kind, query address ≠ .error (.fault kind))

include calm

/-- Where no query faults, no survey does. -/
theorem fault?_visitsFrom (address : Address) :
    Survey.fault? (visitsFrom query address) = none := by
  refine List.findSome?_eq_none_iff.mpr fun visit member => ?_
  rw [(course_visitsFrom query address).answer_eq member]
  cases answered : query visit.address with
  | ok found => rfl
  | error stop =>
      cases stop with
      | failure cause => rfl
      | fault kind => exact absurd answered (calm visit.address kind)

end Course

theorem Survey.run_of_calm {Cause : Type} {target : Target} (survey : Survey)
    (calm : forall address kind, target.query address ≠ .error (.fault kind))
    (trace : Trace) :
    (survey.run target : Run Cause (List Region)) trace =
      (.ok (survey.found (visitsFrom target.query Address.zero)),
        { trace with warnings := trace.warnings ++
            Survey.warnings target.pid (visitsFrom target.query Address.zero) }) := by
  simp only [run, fault?_visitsFrom calm]

end MemoryProbe
