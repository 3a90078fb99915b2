import MemoryProbe.Region
import MemoryProbe.Fault

namespace MemoryProbe

/-!
Queries of a table of regions by halving.  In a table whose regions follow each
other, the search finds the first region that ends above an address; that
region either holds the address or begins above it.
-/

/-- Halve the part of a table that starts at `low` and has `count` entries
until one entry is left, moving on while the entry in the middle passes the
test. -/
def halve {α : Type} (passes : α -> Bool) (table : Array α) (low count : Nat) : Nat :=
  if count ≤ 1 then
    low
  else
    let half := count / 2
    let middle := low + half
    let next := if table[middle]?.any passes then middle else low
    halve passes table next (count - half)
termination_by count

/-- The number of leading entries that pass a test, in a table whose passing
entries come first. -/
def partitionPoint {α : Type} (passes : α -> Bool) (table : Array α) : Nat :=
  if table.isEmpty then
    0
  else
    let last := halve passes table 0 table.size
    if table[last]?.any passes then last + 1 else last

/-- Answer a query from a table: the region that holds the address, or the gap
up to the next region, or nothing above the last one. -/
def queryRegions (regions : List Region) (address : Address) :
    Except Fault (Option Region) :=
  let table := regions.toArray
  let index := partitionPoint (fun region => decide (region.stop ≤ address)) table
  match table[index]? with
  | none => .ok none
  | some region =>
    if region.contains address then
      .ok (some region)
    else do
      let size <- region.base.since address
      return some (Region.gap address size)

end MemoryProbe
