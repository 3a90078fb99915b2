import MemoryProbe.Target

namespace MemoryProbe

/-!
The survey of an address space: query address zero, then the end of each
answered region, as long as the regions lead upwards.  The visits of a survey
are its queries with their answers; what it finds and what it warns about is
read off the visits.
-/

/-- One query of a survey and its answer. -/
structure Visit where
  address : Address
  answer : Except (Halt MemoryError) (Option Region)

/-- Where a survey goes on after a region: at its end, provided that it is not
empty and ends above the queried address. -/
def Region.next? (region : Region) (address : Address) : Option Address :=
  if region.size = 0 ∨ region.stop ≤ address then none else some region.stop

theorem Region.lt_of_next?_eq_some {region : Region} {address next : Address}
    (h : region.next? address = some next) : address < next := by
  unfold Region.next? at h
  split at h
  · contradiction
  · rename_i hstops
    have hlow : ¬ region.stop ≤ address := fun hle => hstops (Or.inr hle)
    rw [Option.some.injEq] at h
    rw [<- h]
    exact UInt64.not_le.mp hlow

/-- The visits from an address on.  Each visited address is higher than the one
before, so there are finitely many. -/
def visitsFrom (query : Address -> Except (Halt MemoryError) (Option Region))
    (address : Address) : List Visit :=
  let answer := query address
  let visit : Visit := ⟨address, answer⟩
  match answer with
  | .ok (some region) =>
    match _hnext : region.next? address with
    | some next => visit :: visitsFrom query next
    | none => [visit]
  | _ => [visit]
termination_by UInt64.size - address.value.toNat
decreasing_by
  have hlt : address.value.toNat < next.value.toNat :=
    Region.lt_of_next?_eq_some _hnext
  have hbound : next.value.toNat < UInt64.size := next.value.toNat_lt
  omega

/-- What a survey keeps. -/
structure Survey where
  /-- Regions of fewer bytes are left out. -/
  minimumSize : Word := 0
  /-- Reserved and free regions are left out as well. -/
  committedOnly : Bool := true

namespace Survey

def keeps (survey : Survey) (region : Region) : Bool :=
  (!survey.committedOnly || region.isCommitted)
    && decide (survey.minimumSize ≤ region.size)

/-- The kept regions of some visits, in the order of the visits. -/
def found (survey : Survey) (visits : List Visit) : List Region :=
  visits.filterMap fun visit =>
    match visit.answer with
    | .ok (some region) => if survey.keeps region then some region else none
    | _ => none

/-- The warnings of some visits: one for every failed query. -/
def warnings (pid : UInt32) (visits : List Visit) : List String :=
  visits.filterMap fun visit =>
    match visit.answer with
    | .error (.failure cause) =>
      some ("Region enumeration of pid " ++ toString pid.toNat ++ " stopped: "
        ++ cause.message)
    | _ => none

/-- The fault that ended some visits, if one did. -/
def fault? (visits : List Visit) : Option Fault :=
  visits.findSome? fun visit =>
    match visit.answer with
    | .error (.fault kind) => some kind
    | _ => none

/-- Survey a whole target within a run, which keeps the warnings. -/
def run {Cause : Type} (survey : Survey) (target : Target) :
    Run Cause (List Region) :=
  fun trace =>
    let visits := visitsFrom target.query Address.zero
    let later :=
      { trace with warnings := trace.warnings ++ warnings target.pid visits }
    match fault? visits with
    | some kind => (.error (.fault kind), later)
    | none => (.ok (survey.found visits), later)

end Survey

end MemoryProbe
