import MemoryProbe.Proofs.Region.Memory

namespace MemoryProbe

/-!
Where a pattern lies in the regions of a process.  What is looked for is told by the
memory and the regions alone; nothing here knows how the regions are cut.
-/

/-- The bytes of a memory from a place on. -/
def Memory.bytesAt (memory : Memory) (place length : Nat) : List UInt8 :=
  (List.range length).map fun index => memory (place + index)

theorem Memory.begins_bytesAt (memory : Memory) (place length : Nat) :
    memory.Begins place (memory.bytesAt place length) := by
  intro index byte found
  unfold bytesAt at found
  rw [List.getElem?_map] at found
  rcases Option.map_eq_some_iff.mp found with ⟨other, listed, same⟩
  rw [List.getElem?_range (by
    have inside := (List.getElem?_eq_some_iff.mp listed).1
    rwa [List.length_range] at inside), Option.some.injEq] at listed
  rw [listed]
  exact same

/-- A pattern lies whole in a region, at a place of a memory. -/
structure Pattern.LiesIn (pattern : Pattern) (memory : Memory) (region : Region)
    (place : Nat) : Prop where
  base_le : region.base.toNat ≤ place
  le_stop : place + pattern.length ≤ region.base.toNat + region.size.toNat
  liesAt : pattern.LiesAt memory place

/-- The places of a pattern in a region, in rising order. -/
def Pattern.placesIn (pattern : Pattern) (memory : Memory) (region : Region) : List Nat :=
  (pattern.occurrences (memory.bytesAt region.base.toNat region.size.toNat)).map fun offset =>
    region.base.toNat + offset

section Region

variable {pattern : Pattern} {memory : Memory} {region : Region}

theorem Pattern.mem_placesIn {place : Nat} :
    place ∈ pattern.placesIn memory region <-> pattern.LiesIn memory region place := by
  have length : (memory.bytesAt region.base.toNat region.size.toNat).length =
      region.size.toNat := by
    unfold Memory.bytesAt
    rw [List.length_map, List.length_range]
  have begins := memory.begins_bytesAt region.base.toNat region.size.toNat
  unfold placesIn
  rw [List.mem_map]
  constructor
  · rintro ⟨offset, member, rfl⟩
    rcases (mem_occurrences_iff_liesAt begins).mp member with ⟨inside, lies⟩
    exact ⟨Nat.le_add_right _ _, by omega, lies⟩
  · intro lies
    have low := lies.base_le
    have high := lies.le_stop
    have same : region.base.toNat + (place - region.base.toNat) = place := by omega
    refine ⟨place - region.base.toNat, (mem_occurrences_iff_liesAt begins).mpr ⟨?_, ?_⟩, same⟩
    · omega
    · rw [same]
      exact lies.liesAt

theorem Pattern.placesIn_sorted :
    (pattern.placesIn memory region).Pairwise fun place later => place < later := by
  unfold placesIn
  rw [List.pairwise_map]
  exact occurrences_sorted.imp fun less => Nat.add_lt_add_left less _

end Region

namespace Inspected

/-- Whether a region is committed and a survey comes behind it. -/
def offers (process : Inspected) (region : Region) : Bool :=
  region.isCommitted && reaches process.table process.failingQuery region

/-- The places of a pattern in the committed regions that a survey comes behind. -/
def places (process : Inspected) (memory : Memory) (pattern : Pattern) : List Nat :=
  (process.table.filter process.offers).flatMap fun region => pattern.placesIn memory region

variable {process : Inspected} {memory : Memory} {pattern : Pattern}

theorem mem_places {place : Nat} :
    place ∈ process.places memory pattern <-> ∃ region, region ∈ process.table ∧
      process.offers region = true ∧ pattern.LiesIn memory region place := by
  unfold places
  rw [List.mem_flatMap]
  refine exists_congr fun region => ?_
  rw [List.mem_filter, Pattern.mem_placesIn, and_assoc]

/-- The places in regions behind each other rise. -/
theorem places_sorted (ordered : Ordered process.table) :
    (process.places memory pattern).Pairwise fun place later => place < later := by
  unfold places
  rw [List.pairwise_flatMap]
  refine ⟨fun region _ => Pattern.placesIn_sorted, ?_⟩
  refine (ordered.pairwise.filter _).imp fun {region later} apart place here other there => ?_
  have first := (Pattern.mem_placesIn.mp here).le_stop
  have second := (Pattern.mem_placesIn.mp there).base_le
  have positive : 0 < pattern.length := List.length_pos_iff.mpr pattern.nonempty
  omega

/-- A rising list of exactly these places is that list. -/
theorem eq_places (ordered : Ordered process.table) {found : List Nat}
    (sorted : found.Pairwise fun place later => place < later)
    (exactly : forall place, place ∈ found <-> place ∈ process.places memory pattern) :
    found = process.places memory pattern :=
  sorted.eq_of_mem_iff (places_sorted ordered) exactly

end Inspected
end MemoryProbe
