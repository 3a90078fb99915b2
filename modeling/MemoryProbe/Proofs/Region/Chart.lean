import MemoryProbe.Kernel.RegionTable
import MemoryProbe.Target.Staged

namespace MemoryProbe

/-!
Queries of a table of regions.  Walking along the table and halving it answer the
same: the first region that ends above the address, or the gap below it.  Halving comes to an
answer in a table without any order as well.
-/

/-- Regions below the last byte of the address space, each of which ends at or before
the next one. -/
structure Ordered (table : List Region) : Prop where
  fits : forall region, region ∈ table ->
    region.base.toNat + region.size.toNat < UInt64.size
  follows : forall (index : Nat) (region later : Region), table[index]? = some region ->
    table[index + 1]? = some later ->
    region.base.toNat + region.size.toNat ≤ later.base.toNat

/-- The answer to a query of a table. -/
def chart (table : List Region) (address : Address) : Option Region :=
  (table.find? fun region => decide (address < region.stop)).map fun region =>
    if region.base ≤ address then region
    else Region.gap address (region.base.value - address.value)

namespace Address

variable {left right : Address}

theorem lt_iff_toNat_lt : left < right <-> left.toNat < right.toNat :=
  UInt64.lt_iff_toNat_lt

theorem le_iff_toNat_le : left ≤ right <-> left.toNat ≤ right.toNat :=
  UInt64.le_iff_toNat_le

theorem toNat_inj : left.toNat = right.toNat <-> left = right := by
  rw [Address.ext_iff]
  exact UInt64.toNat_inj

section Sorting

variable {α : Type} (address : α -> Address)

theorem decide_le_trans (left middle right : α)
    (first : decide (address left ≤ address middle) = true)
    (second : decide (address middle ≤ address right) = true) :
    decide (address left ≤ address right) = true :=
  decide_eq_true (UInt64.le_trans (of_decide_eq_true first) (of_decide_eq_true second))

theorem decide_le_total (left right : α) :
    (decide (address left ≤ address right) || decide (address right ≤ address left)) = true := by
  rw [Bool.or_eq_true, decide_eq_true_eq, decide_eq_true_eq]
  exact UInt64.le_total (address left).value (address right).value

/-- Entries that are sorted by their addresses rise. -/
theorem pairwise_mergeSort (entries : List α) :
    (entries.mergeSort fun left right => decide (address left ≤ address right)).Pairwise
      fun entry later => address entry ≤ address later :=
  (List.pairwise_mergeSort (decide_le_trans address) (decide_le_total address) entries).imp
    fun order => of_decide_eq_true order

end Sorting

end Address

namespace Region

theorem base_le_stop (region : Region) : region.base.toNat ≤ region.stop.toNat := by
  have held := Word.toNat_saturatingAdd region.base.value region.size
  have bound : region.base.value.toNat < UInt64.size := region.base.value.toNat_lt
  change region.base.value.toNat ≤ (Word.saturatingAdd _ _).toNat
  omega

theorem stop_toNat {region : Region}
    (fits : region.base.toNat + region.size.toNat < UInt64.size) :
    region.stop.toNat = region.base.toNat + region.size.toNat := by
  have held := Word.toNat_saturatingAdd region.base.value region.size
  unfold Address.toNat at fits
  change (Word.saturatingAdd _ _).toNat = region.base.value.toNat + _
  omega

theorem contains_eq_true_iff {region : Region} {address : Address} :
    region.contains address = true <->
      region.base.toNat ≤ address.toNat ∧ address.toNat < region.stop.toNat := by
  unfold contains
  rw [Bool.and_eq_true, decide_eq_true_eq, decide_eq_true_eq, Address.le_iff_toNat_le,
    Address.lt_iff_toNat_lt]

/-- The bytes up to a region that begins higher. -/
theorem since_eq {region : Region} {address : Address} (below : address < region.base) :
    region.base.since address = .ok (region.base.value - address.value) := by
  have less := Address.lt_iff_toNat_lt.mp below
  unfold Address.toNat at less
  unfold Address.since
  rw [Word.difference_eq_ok_iff,
    UInt64.toNat_sub_of_le _ _ (UInt64.le_iff_toNat_le.mpr (Nat.le_of_lt less))]
  omega

end Region

theorem Ordered.tail {region : Region} {rest : List Region}
    (ordered : Ordered (region :: rest)) : Ordered rest :=
  ⟨fun other member => ordered.fits other (List.mem_cons_of_mem _ member),
    fun index left right here next => ordered.follows (index + 1) left right here next⟩

/-- Regions are ordered if each of them ends at or before all that come after it. -/
theorem Ordered.of_pairwise {table : List Region}
    (fits : forall region, region ∈ table ->
      region.base.toNat + region.size.toNat < UInt64.size)
    (apart : table.Pairwise fun region later =>
      region.base.toNat + region.size.toNat ≤ later.base.toNat) : Ordered table := by
  refine ⟨fits, fun index region later here next => ?_⟩
  rcases List.getElem?_eq_some_iff.mp here with ⟨inside, rfl⟩
  rcases List.getElem?_eq_some_iff.mp next with ⟨behind, rfl⟩
  exact List.pairwise_iff_getElem.mp apart index (index + 1) inside behind
    (Nat.lt_succ_self index)

/-- Every region ends at or before all that come after it. -/
theorem Ordered.pairwise {table : List Region} (ordered : Ordered table) :
    table.Pairwise fun region later =>
      region.base.toNat + region.size.toNat ≤ later.base.toNat := by
  induction table with
  | nil => exact List.Pairwise.nil
  | cons region rest ih =>
      have later := ih ordered.tail
      refine List.Pairwise.cons (fun other member => ?_) later
      cases rest with
      | nil => exact absurd member List.not_mem_nil
      | cons next rest =>
          have close := ordered.follows 0 region next rfl rfl
          rcases List.mem_cons.mp member with rfl | far
          · exact close
          · have beyond := (List.pairwise_cons.mp later).1 other far
            omega

namespace StagedProcess

/-- Walking along a table answers as charted. -/
theorem queryTable_eq (address : Address) (table : List StagedRegion) :
    queryTable address table = .ok (chart (table.map StagedRegion.region) address) := by
  unfold chart
  induction table with
  | nil => rfl
  | cons staged rest ih =>
      unfold queryTable
      rw [List.map_cons, List.find?_cons]
      by_cases below : address < staged.region.stop
      · rw [decide_eq_true below]
        by_cases inside : staged.region.base ≤ address
        · have holds : staged.region.contains address = true :=
            Region.contains_eq_true_iff.mpr
              ⟨Address.le_iff_toNat_le.mp inside, Address.lt_iff_toNat_lt.mp below⟩
          rw [if_pos holds, Option.map_some, if_pos inside]
        · have misses : ¬ staged.region.contains address = true := fun holds =>
            inside (Address.le_iff_toNat_le.mpr (Region.contains_eq_true_iff.mp holds).1)
          have above : address < staged.region.base := UInt64.not_le.mp inside
          rw [if_neg misses, if_pos above, Region.since_eq above, Option.map_some,
            if_neg inside]
          rfl
      · rw [decide_eq_false below]
        have passed := UInt64.le_iff_toNat_le.mp (UInt64.not_lt.mp below)
        have misses : ¬ staged.region.contains address = true := fun holds =>
          below (Address.lt_iff_toNat_lt.mpr (Region.contains_eq_true_iff.mp holds).2)
        have behind : ¬ address < staged.region.base := by
          intro above
          have less := Address.lt_iff_toNat_lt.mp above
          have room := staged.region.base_le_stop
          exact absurd (Nat.lt_of_lt_of_le less room) (Nat.not_lt.mpr passed)
        rw [if_neg misses, if_neg behind]
        exact ih

end StagedProcess

section Halving

variable {α : Type} {passes : α -> Bool}

/-- The entries of a table that pass are its first ones. -/
def Leading (passes : α -> Bool) (table : Array α) (number : Nat) : Prop :=
  forall index, table[index]?.any passes = decide (index < number)

/-- Halving goes on from the entry in the middle if that one passes. -/
theorem halve_of_lt {table : Array α} {low count : Nat} (large : 1 < count) :
    halve passes table low count =
      halve passes table
        (if table[low + count / 2]?.any passes = true then low + count / 2 else low)
        (count - count / 2) := by
  conv =>
    lhs
    unfold halve
  rw [if_neg (Nat.not_le.mpr large)]

/-- Halving ends at the last entry that passes, or at the first entry if none does. -/
theorem halve_bounds {table : Array α} {number low count : Nat}
    (leading : Leading passes table number) (begins : low = 0 ∨ low < number)
    (ends : number ≤ low + count) (some : 0 < count) :
    (halve passes table low count = 0 ∨ halve passes table low count < number) ∧
      number ≤ halve passes table low count + 1 := by
  induction count using Nat.strongRecOn generalizing low with
  | ind count ih =>
      by_cases large : 1 < count
      · have shorter : 0 < count / 2 ∧ count / 2 < count := ⟨by omega, by omega⟩
        rw [halve_of_lt large, leading]
        by_cases passed : low + count / 2 < number
        · rw [decide_eq_true passed, if_pos rfl]
          exact ih _ (by omega) (Or.inr passed) (by omega) (by omega)
        · rw [decide_eq_false passed, if_neg Bool.false_ne_true]
          exact ih _ (by omega) begins (by omega) (by omega)
      · unfold halve
        rw [if_pos (Nat.not_lt.mp large)]
        exact ⟨begins, by omega⟩

/-- In any table, an entry that does not pass at the end of what is halved, or one place in
front of it, keeps the entry behind the last one from passing. -/
theorem halve_barred {table : Array α} {low count bound : Nat}
    (barred : table[bound]?.any passes = false) (above : low < bound)
    (inside : bound ≤ low + count) (near : low + count ≤ bound + 1) :
    table[halve passes table low count + 1]?.any passes = false := by
  induction count using Nat.strongRecOn generalizing low bound with
  | ind count ih =>
      by_cases large : 1 < count
      · have shorter : 0 < count / 2 ∧ count / 2 < count := ⟨by omega, by omega⟩
        rw [halve_of_lt large]
        cases middle : table[low + count / 2]?.any passes with
        | true =>
            have other : bound ≠ low + count / 2 := by
              rintro rfl
              rw [barred] at middle
              contradiction
            rw [if_pos rfl]
            exact ih _ (by omega) barred (by omega) (by omega) (by omega)
        | false =>
            rw [if_neg Bool.false_ne_true]
            exact ih _ (by omega) middle (by omega) (by omega) (by omega)
      · have last : bound = low + 1 := by omega
        unfold halve
        rw [if_pos (Nat.not_lt.mp large), <- last]
        exact barred

/-- In any table, sorted or not, the entry at the partition point does not pass. -/
theorem partitionPoint_barred (passes : α -> Bool) (table : Array α) :
    table[partitionPoint passes table]?.any passes = false := by
  unfold partitionPoint
  cases empty : table.isEmpty with
  | true =>
      have none := Array.isEmpty_iff_size_eq_zero.mp empty
      rw [if_pos rfl, Array.getElem?_eq_none (Nat.le_of_eq none)]
      rfl
  | false =>
      have some : 0 < table.size := by
        apply Nat.pos_of_ne_zero
        intro none
        rw [Array.isEmpty_iff_size_eq_zero.mpr none] at empty
        contradiction
      have ends : table[table.size]?.any passes = false := by
        rw [Array.getElem?_eq_none (Nat.le_refl _)]
        rfl
      rw [if_neg Bool.false_ne_true]
      dsimp only
      cases last : table[halve passes table 0 table.size]?.any passes with
      | true =>
          rw [if_pos rfl]
          exact halve_barred ends some (by omega) (by omega)
      | false =>
          rw [if_neg Bool.false_ne_true]
          exact last

theorem partitionPoint_eq {table : Array α} {number : Nat}
    (leading : Leading passes table number) (inside : number ≤ table.size) :
    partitionPoint passes table = number := by
  unfold partitionPoint
  cases empty : table.isEmpty with
  | true =>
      have none := Array.isEmpty_iff_size_eq_zero.mp empty
      rw [if_pos rfl]
      omega
  | false =>
      rw [if_neg Bool.false_ne_true]
      dsimp only
      have some : 0 < table.size := by
        apply Nat.pos_of_ne_zero
        intro none
        rw [Array.isEmpty_iff_size_eq_zero.mpr none] at empty
        contradiction
      have bounds := halve_bounds leading (Or.inl rfl) (by omega) some
      rw [leading]
      by_cases passed : halve passes table 0 table.size < number
      · rw [decide_eq_true passed, if_pos rfl]
        omega
      · rw [decide_eq_false passed, if_neg Bool.false_ne_true]
        omega

/-- Where passing entries come first, the first that fails comes behind them. -/
theorem exists_leading {table : List α}
    (first : table.Pairwise fun entry later => passes later = true -> passes entry = true) :
    ∃ number, number ≤ table.length ∧ Leading passes table.toArray number ∧
      table[number]? = table.find? fun entry => !passes entry := by
  induction table with
  | nil => exact ⟨0, Nat.le_refl _, fun index => by simp, rfl⟩
  | cons entry rest ih =>
      rcases List.pairwise_cons.mp first with ⟨heads, others⟩
      cases test : passes entry with
      | true =>
          rcases ih others with ⟨number, inside, leading, failing⟩
          refine ⟨number + 1, Nat.succ_le_succ inside, fun index => ?_, ?_⟩
          · cases index with
            | zero => simp [test]
            | succ index =>
                have later := leading index
                simpa using later
          · rw [List.getElem?_cons_succ, failing, List.find?_cons, test]
            rfl
      | false =>
          refine ⟨0, Nat.zero_le _, fun index => ?_, ?_⟩
          · rw [decide_eq_false (Nat.not_lt_zero _), List.getElem?_toArray]
            cases found : (entry :: rest)[index]? with
            | none => rfl
            | some other =>
                rw [Option.any_some]
                rcases List.mem_cons.mp (List.mem_of_getElem? found) with rfl | later
                · exact test
                · apply Bool.eq_false_iff.mpr
                  intro passed
                  rw [heads other later passed] at test
                  contradiction
          · rw [List.getElem?_cons_zero, List.find?_cons, test]
            rfl

end Halving

/-- A query of any table is answered, whatever the order and the sizes of its regions. -/
theorem exists_queryRegions (table : List Region) (address : Address) :
    ∃ answer, queryRegions table address = .ok answer := by
  have barred := partitionPoint_barred (fun region : Region => decide (region.stop ≤ address))
    table.toArray
  unfold queryRegions
  dsimp only
  split
  · exact ⟨none, rfl⟩
  · rename_i region found
    rw [found, Option.any_some, decide_eq_false_iff_not] at barred
    have below : address < region.stop := UInt64.not_le.mp barred
    by_cases holds : region.contains address = true
    · exact ⟨some region, if_pos holds⟩
    · have above : address < region.base := by
        refine UInt64.not_le.mp fun begun => holds (Region.contains_eq_true_iff.mpr ?_)
        exact ⟨Address.le_iff_toNat_le.mp begun, Address.lt_iff_toNat_lt.mp below⟩
      rw [if_neg holds, Region.since_eq above]
      exact ⟨_, rfl⟩

/-- Halving a table answers as charted. -/
theorem queryRegions_eq {table : List Region} (ordered : Ordered table) (address : Address) :
    queryRegions table address = .ok (chart table address) := by
  have leads : table.Pairwise fun region later =>
      decide (later.stop ≤ address) = true -> decide (region.stop ≤ address) = true := by
    refine ordered.pairwise.imp_of_mem fun {region later} member _ apart passed => ?_
    rw [decide_eq_true_eq, Address.le_iff_toNat_le] at passed ⊢
    have ends := Region.stop_toNat (ordered.fits region member)
    have room := later.base_le_stop
    omega
  rcases exists_leading leads with ⟨number, inside, leading, failing⟩
  have point := partitionPoint_eq leading inside
  unfold queryRegions chart
  dsimp only
  rw [point, List.getElem?_toArray, failing]
  have same : (table.find? fun region => !decide (region.stop ≤ address)) =
      table.find? fun region => decide (address < region.stop) := by
    refine congrArg (fun test => table.find? test) (funext fun region => ?_)
    rw [<- decide_not]
    exact decide_eq_decide.mpr UInt64.not_le
  rw [same]
  cases found : table.find? fun region => decide (address < region.stop) with
  | none => rfl
  | some region =>
      have below : address < region.stop := by
        have passed := List.find?_some found
        exact of_decide_eq_true passed
      rw [Option.map_some]
      dsimp only
      by_cases begun : region.base ≤ address
      · have holds : region.contains address = true := Region.contains_eq_true_iff.mpr
          ⟨Address.le_iff_toNat_le.mp begun, Address.lt_iff_toNat_lt.mp below⟩
        rw [if_pos holds, if_pos begun]
      · have misses : ¬ region.contains address = true := fun holds =>
          begun (Address.le_iff_toNat_le.mpr (Region.contains_eq_true_iff.mp holds).1)
        rw [if_neg misses, if_neg begun, Region.since_eq (UInt64.not_le.mp begun)]
        rfl

end MemoryProbe
