import MemoryProbe.Proofs.Region.Reach

namespace MemoryProbe

/-!
What a query of an ordered table answers.  The region that holds the address is the answer, if
there is one; otherwise the gap up to the first region above the address; and nothing behind
the last region.  A process of a machine seeks the answer by halving its table and one that is
written down by walking along it, and neither a region without any bytes nor an address where
two regions meet tells them apart.
-/

namespace Region

/-- Unused memory from an address exactly up to a region. -/
structure IsGap (gap : Region) (address : Address) (region : Region) : Prop where
  base_eq : gap.base = address
  some : gap.size ≠ 0
  end_eq : address.toNat + gap.size.toNat = region.base.toNat
  state_eq : gap.state = .free
  kind_eq : gap.kind = .unspecified
  protection_eq : gap.protection = Protection.none
  allocationBase_eq : gap.allocationBase = address

/-- What lies at an address of a table: a region of it, or the gap up to the first region that
begins above the address, or nothing if no region does. -/
inductive LiesAt (table : List Region) (address : Address) : Option Region -> Prop where
  | region {region : Region} (member : region ∈ table)
    (holds : region.contains address = true) : LiesAt table address (some region)
  | gap {front back : List Region} {region gap : Region} (split : table = front ++ region :: back)
    (bare : forall other, other ∈ table -> other.contains address = false)
    (passed : forall earlier, earlier ∈ front -> earlier.base ≤ address)
    (above : address < region.base) (isGap : gap.IsGap address region) :
    LiesAt table address (some gap)
  | nothing (bare : forall other, other ∈ table -> other.contains address = false)
    (passed : forall other, other ∈ table -> other.base ≤ address) : LiesAt table address none

section Gap

variable {address : Address} {region gap : Region}

theorem isGap_gap (above : address < region.base) :
    (Region.gap address (region.base.value - address.value)).IsGap address region := by
  have less := Address.lt_iff_toNat_lt.mp above
  have size := (gap_stop above).1
  refine ⟨rfl, fun empty => ?_, by omega, rfl, rfl, rfl, rfl⟩
  rw [empty] at size
  change 0 = _ at size
  omega

/-- A gap is known by the place it begins at and the region it leads to. -/
theorem IsGap.eq {other : Region} (here : gap.IsGap address region)
    (there : other.IsGap address region) : gap = other := by
  have sizes : gap.size = other.size := by
    apply UInt64.toNat_inj.mp
    have ends := here.end_eq
    rw [<- there.end_eq] at ends
    exact Nat.add_left_cancel ends
  rcases gap with ⟨base, size, protection, state, kind, allocationBase⟩
  rcases other with ⟨base', size', protection', state', kind', allocationBase'⟩
  rw [Region.mk.injEq]
  exact ⟨here.base_eq.trans there.base_eq.symm, sizes,
    here.protection_eq.trans there.protection_eq.symm, here.state_eq.trans there.state_eq.symm,
    here.kind_eq.trans there.kind_eq.symm,
    here.allocationBase_eq.trans there.allocationBase_eq.symm⟩

end Gap

section Contains

variable {address : Address} {region : Region}

/-- A region that begins at or below an address and does not hold it ends there or below. -/
theorem stop_le_of_bare (begun : region.base ≤ address)
    (bare : region.contains address = false) : region.stop ≤ address := by
  refine UInt64.not_lt.mp fun below => ?_
  have holds : region.contains address = true :=
    Bool.and_eq_true_iff.mpr ⟨decide_eq_true begun, decide_eq_true below⟩
  rw [holds] at bare
  contradiction

theorem bare_of_stop_le (past : region.stop ≤ address) : region.contains address = false := by
  refine Bool.eq_false_iff.mpr fun holds => ?_
  have inside := (contains_eq_true_iff.mp holds).2
  have low := Address.le_iff_toNat_le.mp past
  omega

theorem bare_of_lt_base (above : address < region.base) : region.contains address = false := by
  refine Bool.eq_false_iff.mpr fun holds => ?_
  have inside := (contains_eq_true_iff.mp holds).1
  have less := Address.lt_iff_toNat_lt.mp above
  omega

theorem base_le_of_stop_le (past : region.stop ≤ address) : region.base ≤ address := by
  have room := region.base_le_stop
  have low := Address.le_iff_toNat_le.mp past
  exact Address.le_iff_toNat_le.mpr (Nat.le_trans room low)

theorem lt_stop_of_lt_base (above : address < region.base) : address < region.stop := by
  have room := region.base_le_stop
  have less := Address.lt_iff_toNat_lt.mp above
  exact Address.lt_iff_toNat_lt.mpr (Nat.lt_of_lt_of_le less room)

end Contains

section Table

variable {table : List Region} {address : Address}

/-- What a table charts at an address lies there. -/
theorem liesAt_chart (ordered : Ordered table) : LiesAt table address (chart table address) := by
  unfold chart
  cases found : table.find? fun region => decide (address < region.stop) with
  | none =>
      have past : forall other, other ∈ table -> other.stop ≤ address := by
        intro other member
        have misses := List.find?_eq_none.mp found other member
        exact UInt64.not_lt.mp fun below => misses (decide_eq_true below)
      exact .nothing (fun other member => bare_of_stop_le (past other member))
        fun other member => base_le_of_stop_le (past other member)
  | some region =>
      rcases List.find?_eq_some_iff_append.mp found with ⟨test, front, back, split, passed⟩
      have below : address < region.stop := of_decide_eq_true test
      have member : region ∈ table := split ▸ List.mem_append_right _ List.mem_cons_self
      have past : forall earlier, earlier ∈ front -> earlier.stop ≤ address := by
        intro earlier among
        have misses := passed earlier among
        rw [Bool.not_eq_true', decide_eq_false_iff_not] at misses
        exact UInt64.not_lt.mp misses
      rw [Option.map_some]
      split
      · rename_i begun
        exact .region member (Bool.and_eq_true_iff.mpr
          ⟨decide_eq_true begun, decide_eq_true below⟩)
      · rename_i unbegun
        have above : address < region.base := UInt64.not_le.mp unbegun
        refine .gap split (fun other among => ?_)
          (fun earlier among => base_le_of_stop_le (past earlier among)) above (isGap_gap above)
        rw [split] at among
        rcases List.mem_append.mp among with early | late
        · exact bare_of_stop_le (past other early)
        · rcases List.mem_cons.mp late with rfl | behind
          · exact bare_of_lt_base above
          · -- What comes behind the region begins above the region's end.
            have apart := (List.pairwise_append.mp (split ▸ ordered.pairwise)).2.1
            have room := (List.pairwise_cons.mp apart).1 other behind
            have less := Address.lt_iff_toNat_lt.mp above
            exact bare_of_lt_base (Address.lt_iff_toNat_lt.mpr (by omega))

/-- A region that holds an address is the first one that ends above it. -/
theorem find?_of_contains {region : Region} (ordered : Ordered table) (member : region ∈ table)
    (holds : region.contains address = true) :
    (table.find? fun other => decide (address < other.stop)) = some region := by
  rcases contains_eq_true_iff.mp holds with ⟨begun, below⟩
  rcases List.append_of_mem member with ⟨front, back, split⟩
  refine List.find?_eq_some_iff_append.mpr
    ⟨decide_eq_true (Address.lt_iff_toNat_lt.mpr below), front, back, split,
      fun earlier among => ?_⟩
  have apart := (List.pairwise_append.mp (split ▸ ordered.pairwise)).2.2 earlier among region
    List.mem_cons_self
  have ends := stop_toNat (ordered.fits earlier (split ▸ List.mem_append_left _ among))
  rw [Bool.not_eq_true', decide_eq_false_iff_not, Address.lt_iff_toNat_lt]
  omega

/-- Only what a table charts at an address lies there. -/
theorem LiesAt.eq_chart {answer : Option Region} (ordered : Ordered table)
    (lies : LiesAt table address answer) : answer = chart table address := by
  unfold chart
  cases lies with
  | region member holds =>
      have begun := Address.le_iff_toNat_le.mpr (contains_eq_true_iff.mp holds).1
      rw [find?_of_contains ordered member holds, Option.map_some, if_pos begun]
  | @gap front back region gap split bare passed above isGap =>
      have found : (table.find? fun other => decide (address < other.stop)) = some region := by
        refine List.find?_eq_some_iff_append.mpr
          ⟨decide_eq_true (lt_stop_of_lt_base above), front, back, split, fun earlier among => ?_⟩
        have past := stop_le_of_bare (passed earlier among)
          (bare earlier (split ▸ List.mem_append_left _ among))
        rw [Bool.not_eq_true', decide_eq_false_iff_not]
        exact UInt64.not_lt.mpr past
      have unbegun : ¬region.base ≤ address := UInt64.not_le.mpr above
      rw [found, Option.map_some, if_neg unbegun, isGap.eq (isGap_gap above)]
  | nothing bare passed =>
      have none : (table.find? fun other => decide (address < other.stop)) = none := by
        refine List.find?_eq_none.mpr fun other member below => ?_
        have past := stop_le_of_bare (passed other member) (bare other member)
        exact UInt64.not_lt.mpr past (of_decide_eq_true below)
      rw [none]
      rfl

theorem liesAt_iff {answer : Option Region} (ordered : Ordered table) :
    LiesAt table address answer <-> answer = chart table address :=
  ⟨LiesAt.eq_chart ordered, fun same => same ▸ liesAt_chart ordered⟩

end Table

end Region

/-- Queries of an ordered table, in which regions may be empty.  At every address a process of
a machine that halves the table and a process that is written down and walks along it answer the
same, and no difference is taken that would be negative.  Their answer is the one thing that
lies at the address. -/
theorem queries_tell_what_lies (live : LiveProcess) (staged : StagedProcess)
    (same : live.regions = staged.regions.map StagedRegion.region)
    (ordered : Ordered live.regions) (address : Address) :
    ∃ answer,
      queryRegions live.regions address = .ok answer ∧
      StagedProcess.queryTable address staged.regions = .ok answer ∧
      live.query address = .ok answer ∧
      (staged.failingQuery ≠ some address -> staged.query address = .ok answer) ∧
      forall other, Region.LiesAt live.regions address other <-> other = answer := by
  have halved := queryRegions_eq ordered address
  have walked := StagedProcess.queryTable_eq address staged.regions
  rw [<- same] at walked
  refine ⟨chart live.regions address, halved, walked, ?_, fun answers => ?_,
    fun other => Region.liesAt_iff ordered⟩
  · unfold LiveProcess.query
    rw [halved]
    rfl
  · unfold StagedProcess.query
    rw [if_neg answers, walked]
    rfl

/-- A region, and behind a gap an empty region and another one that begin together. -/
def hollowRegions : List Region :=
  [Region.committedPrivate ⟨0x10⟩ 0x10 Protection.readable,
    Region.committedPrivate ⟨0x30⟩ 0 Protection.readable,
    Region.committedPrivate ⟨0x30⟩ 0x10 Protection.readable]

def hollowStaged : StagedProcess :=
  { regions := hollowRegions.map fun region => ⟨region, [], 0⟩ }

def hollowLive : LiveProcess :=
  ⟨1, [], [], hollowRegions⟩

/-- Where the first region ends a gap begins, which leads up to the empty region.  The empty
region holds no address, so the region behind it is found at their common base. -/
theorem queries_tell_what_lies_of_hollow :
    hollowLive.query ⟨0x20⟩ = .ok (some (Region.gap ⟨0x20⟩ 0x10)) ∧
    hollowStaged.query ⟨0x20⟩ = .ok (some (Region.gap ⟨0x20⟩ 0x10)) ∧
    hollowLive.query ⟨0x30⟩ = .ok hollowRegions[2]? ∧
    hollowStaged.query ⟨0x30⟩ = .ok hollowRegions[2]? := by
  have same : hollowLive.regions = hollowStaged.regions.map StagedRegion.region := rfl
  have ordered : Ordered hollowLive.regions := Ordered.of_pairwise (by decide) (by decide)
  rcases queries_tell_what_lies hollowLive hollowStaged same ordered ⟨0x20⟩ with
    ⟨gap, -, -, halved, walked, lies⟩
  rcases queries_tell_what_lies hollowLive hollowStaged same ordered ⟨0x30⟩ with
    ⟨filled, -, -, halved', walked', lies'⟩
  have between : some (Region.gap ⟨0x20⟩ 0x10) = gap :=
    (lies _).mp (@Region.LiesAt.gap _ _ (hollowRegions.take 1) _ _ _ rfl (by decide) (by decide)
      (by decide) ⟨rfl, by decide, rfl, rfl, rfl, rfl, rfl⟩)
  have inside : hollowRegions[2]? = filled :=
    (lies' _).mp (.region (by decide) (by decide))
  exact ⟨between ▸ halved, between ▸ walked nofun, inside ▸ halved', inside ▸ walked' nofun⟩

end MemoryProbe
