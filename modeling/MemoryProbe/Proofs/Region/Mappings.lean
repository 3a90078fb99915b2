import Mathlib
import MemoryProbe.Kernel.LiveProcess
import MemoryProbe.Proofs.Region.Chart

namespace MemoryProbe

/-!
The region tables of processes of a machine.  A mapping and its region have the same
range, and the region is committed exactly if the mapping allows any access.  Sorting
brings mappings whose ranges are filled and apart into order, however they are listed.
-/

namespace Mapping

/-- The ranges of two mappings have no address in common. -/
def Apart (mapping other : Mapping) : Prop :=
  mapping.stop ≤ other.start ∨ other.stop ≤ mapping.start

instance (mapping other : Mapping) : Decidable (mapping.Apart other) :=
  inferInstanceAs (Decidable (_ ∨ _))

variable (images : List ImageModule) (mapping : Mapping)

@[simp]
theorem region_base : (mapping.region images).base = ⟨mapping.start⟩ := by
  simp only [region]
  split <;> split <;> (try split) <;> rfl

@[simp]
theorem region_size : (mapping.region images).size = mapping.size := by
  simp only [region]
  split <;> split <;> (try split) <;> rfl

@[simp]
theorem region_protection : (mapping.region images).protection = mapping.protection := by
  simp only [region]
  split <;> split <;> (try split) <;> rfl

theorem region_isCommitted :
    (mapping.region images).isCommitted = mapping.protection.anyAccess := by
  simp only [region]
  split
  · rename_i access
    rw [access]
    split <;> (try split) <;> rfl
  · rename_i locked
    rw [Bool.eq_false_iff.mpr locked]
    rfl

variable {images mapping}

theorem region_start : (mapping.region images).base.toNat = mapping.start.toNat := by
  rw [region_base]
  rfl

theorem size_toNat (rising : mapping.start ≤ mapping.stop) :
    mapping.size.toNat = mapping.stop.toNat - mapping.start.toNat :=
  UInt64.toNat_sub_of_le _ _ rising

theorem size_ne_zero (filled : mapping.start < mapping.stop) : mapping.size ≠ 0 := by
  intro empty
  have size := size_toNat (UInt64.le_of_lt filled)
  have less := UInt64.lt_iff_toNat_lt.mp filled
  rw [empty] at size
  change 0 = _ at size
  omega

/-- A region reaches to the end of its mapping. -/
theorem region_end (rising : mapping.start ≤ mapping.stop) :
    (mapping.region images).base.toNat + (mapping.region images).size.toNat =
      mapping.stop.toNat := by
  have order := UInt64.le_iff_toNat_le.mp rising
  rw [region_start, region_size, size_toNat rising]
  omega

section Table

variable (mappings : List Mapping)

theorem regions_perm :
    (regions mappings images).Perm (mappings.map (region images)) :=
  List.mergeSort_perm _ _

/-- Sorted regions of filled mappings that are apart are ordered. -/
theorem ordered_regions
    (filled : forall mapping, mapping ∈ mappings -> mapping.start < mapping.stop)
    (apart : mappings.Pairwise Apart) : Ordered (regions mappings images) := by
  have perm : (regions mappings images).Perm (mappings.map (region images)) :=
    regions_perm mappings
  have origin : forall area, area ∈ regions mappings images ->
      ∃ mapping, mapping ∈ mappings ∧ mapping.region images = area :=
    fun area member => List.mem_map.mp (perm.mem_iff.mp member)
  have rising : forall mapping, mapping ∈ mappings -> mapping.start ≤ mapping.stop :=
    fun mapping member => UInt64.le_of_lt (filled mapping member)
  have disjoint : (regions mappings images).Pairwise fun area other =>
      area.base.toNat + area.size.toNat ≤ other.base.toNat ∨
        other.base.toNat + other.size.toNat ≤ area.base.toNat := by
    refine List.Pairwise.perm ?_ perm.symm fun either => either.symm
    refine List.pairwise_map.mpr (apart.imp_of_mem fun {mapping other} here there lies => ?_)
    rw [region_end (rising mapping here), region_end (rising other there), region_start,
      region_start]
    exact lies.imp UInt64.le_iff_toNat_le.mp UInt64.le_iff_toNat_le.mp
  have sorted := Address.pairwise_mergeSort Region.base (mappings.map (region images))
  refine Ordered.of_pairwise (fun area member => ?_) ?_
  · rcases origin area member with ⟨mapping, among, rfl⟩
    rw [region_end (rising mapping among)]
    exact mapping.stop.toNat_lt
  · refine (disjoint.and sorted).imp_of_mem fun {area other} _ there both => ?_
    -- Of two regions that are apart, the one that begins lower ends first.
    rcases both.1 with before | behind
    · exact before
    · rcases origin other there with ⟨mapping, among, rfl⟩
      have less := UInt64.lt_iff_toNat_lt.mp (filled mapping among)
      have order := Address.le_iff_toNat_le.mp both.2
      rw [region_end (rising mapping among)] at behind
      rw [region_start] at order
      omega

end Table

end Mapping

/-- Opening a process reads its listing and takes the mappings of that. -/
theorem LiveProcess.openOn_eq_ok_iff {machine : Machine} {pid : UInt32}
    {process : LiveProcess} :
    LiveProcess.openOn machine pid = .ok process <->
      ∃ listing mappings, machine.readText (Machine.mapsPath pid) = .ok listing ∧
        Mapping.ofListing listing = .ok mappings ∧
        process = LiveProcess.ofMappings pid mappings := by
  simp only [openOn]
  cases read : machine.readText (Machine.mapsPath pid) with
  | error cause => simp [Except.mapError, bind, Except.bind]
  | ok listing =>
      cases parsed : Mapping.ofListing listing with
      | error cause => simp [Except.mapError, bind, Except.bind, parsed]
      | ok mappings =>
          simp [Except.mapError, bind, Except.bind, parsed, pure, Except.pure, eq_comm]

/-- The regions of an opened process are those of its mappings. -/
theorem LiveProcess.regions_of_openOn {machine : Machine} {pid : UInt32} {process : LiveProcess}
    (opened : openOn machine pid = .ok process) :
    process.regions = Mapping.regions process.mappings process.images := by
  rcases openOn_eq_ok_iff.mp opened with ⟨listing, mappings, -, -, rfl⟩
  rfl

end MemoryProbe
