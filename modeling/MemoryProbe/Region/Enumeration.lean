import MemoryProbe.Region.Survey

namespace MemoryProbe

/-!
The survey of an address space, one region at a time.  An enumeration keeps the address
that it queries next; asked for a region, it queries until a region passes, and it asks
nothing more once the regions have ended.  A whole survey is an enumeration that is asked
to the end.
-/

/-- A survey that is under way. -/
structure Enumeration where
  survey : Survey := {}
  /-- The address of the next query; nothing behind the last one. -/
  cursor : Option Address := some Address.zero

/-- What comes of asking an enumeration for its next region. -/
structure Enumeration.Reply where
  /-- The queries that were made. -/
  visits : List Visit
  answer : Except Fault (Option Region)
  later : Enumeration

namespace Enumeration

/-- An enumeration that asks nothing more. -/
def ended (enumeration : Enumeration) : Enumeration :=
  { enumeration with cursor := none }

/-- Ask for the next region.  Regions that the survey does not keep are passed over, and
a query that fails ends the regions.  A fault leaves the enumeration where it is. -/
def next (query : Address -> Except (Halt MemoryError) (Option Region))
    (enumeration : Enumeration) : Reply :=
  match _hcursor : enumeration.cursor with
  | none => ⟨[], .ok none, enumeration⟩
  | some address =>
    let answer := query address
    let visit : Visit := ⟨address, answer⟩
    match answer with
    | .error (.fault kind) => ⟨[visit], .error kind, enumeration⟩
    | .error (.failure _) => ⟨[visit], .ok none, enumeration.ended⟩
    | .ok none => ⟨[visit], .ok none, enumeration.ended⟩
    | .ok (some region) =>
      let later := { enumeration with cursor := region.next? address }
      if enumeration.survey.keeps region then
        ⟨[visit], .ok (some region), later⟩
      else
        let reply := next query later
        { reply with visits := visit :: reply.visits }
termination_by enumeration.cursor.elim 0 fun address =>
  UInt64.size - address.value.toNat
decreasing_by
  have hbound : address.value.toNat < UInt64.size := address.value.toNat_lt
  rw [_hcursor]
  cases hnext : region.next? address with
  | none =>
      change 0 < UInt64.size - address.value.toNat
      omega
  | some next =>
      have hlt : address.value.toNat < next.value.toNat :=
        Region.lt_of_next?_eq_some hnext
      change UInt64.size - next.value.toNat < UInt64.size - address.value.toNat
      omega

/-- An enumeration that was asked a number of times. -/
def after (query : Address -> Except (Halt MemoryError) (Option Region))
    (enumeration : Enumeration) : Nat -> Enumeration
  | 0 => enumeration
  | count + 1 => after query (enumeration.next query).later count

end Enumeration

end MemoryProbe
