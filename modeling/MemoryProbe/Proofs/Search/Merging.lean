import MemoryProbe.Proofs.Region.Chart
import MemoryProbe.Search.Report

namespace MemoryProbe

/-!
The merged matches of a report: the addresses that were found in any block, each once,
in rising order.  Of the entries with one address the first is kept.
-/

/-- The addresses that are left rise strictly, above the one before them. -/
theorem dropRepeats_sorted {previous : Option Address} {entries : List MatchEntry}
    (sorted : entries.Pairwise fun entry later => entry.address ≤ later.address)
    (above : forall address, previous = some address ->
      forall entry, entry ∈ entries -> address ≤ entry.address) :
    (dropRepeats previous entries).Pairwise (fun entry later =>
      entry.address < later.address) ∧
    forall address, previous = some address ->
      forall entry, entry ∈ dropRepeats previous entries -> address < entry.address := by
  induction entries generalizing previous with
  | nil => exact ⟨List.Pairwise.nil, fun _ _ entry member => absurd member List.not_mem_nil⟩
  | cons first rest ih =>
      rcases List.pairwise_cons.mp sorted with ⟨least, others⟩
      unfold dropRepeats
      split
      · exact ih others fun address same entry member =>
          above address same entry (List.mem_cons_of_mem _ member)
      · rename_i fresh
        have tail := ih others fun address same entry member =>
          Option.some.inj same ▸ least entry member
        refine ⟨List.Pairwise.cons (tail.2 first.address rfl) tail.1, ?_⟩
        intro address same entry member
        have low := Address.le_iff_toNat_le.mp (above address same first List.mem_cons_self)
        have differs : address.toNat ≠ first.address.toNat := by
          intro equal
          rw [same, Address.toNat_inj.mp equal] at fresh
          exact fresh rfl
        have less : address < first.address := Address.lt_iff_toNat_lt.mpr (by omega)
        rcases List.mem_cons.mp member with rfl | later
        · exact less
        · exact UInt64.lt_trans less (tail.2 first.address rfl entry later)

theorem dropRepeats_sublist {previous : Option Address} {entries : List MatchEntry} :
    (dropRepeats previous entries).Sublist entries := by
  induction entries generalizing previous with
  | nil => exact List.Sublist.refl _
  | cons first rest ih =>
      unfold dropRepeats
      split
      · exact List.Sublist.cons first ih
      · exact List.Sublist.cons_cons first ih

/-- Whether an entry is a match at an address. -/
def MatchEntry.isAt (address : Address) (entry : MatchEntry) : Bool :=
  decide (entry.address = address)

section First

variable {address : Address} {entries : List MatchEntry}

/-- The first entry of an address is not dropped. -/
theorem find?_dropRepeats {previous : Option Address} (other : previous ≠ some address) :
    (dropRepeats previous entries).find? (MatchEntry.isAt address) =
      entries.find? (MatchEntry.isAt address) := by
  induction entries generalizing previous with
  | nil => rfl
  | cons first rest ih =>
      unfold dropRepeats
      by_cases here : first.address = address
      · have hits : first.isAt address = true := decide_eq_true here
        rw [if_neg (here ▸ other), List.find?_cons_of_pos hits, List.find?_cons_of_pos hits]
      · have misses : ¬first.isAt address = true := fun hits => here (of_decide_eq_true hits)
        rw [List.find?_cons_of_neg misses]
        split
        · exact ih other
        · rw [List.find?_cons_of_neg misses]
          exact ih fun same => here (Option.some.inj same)

/-- Sorting by address is stable, so it leaves the first entry of an address the first. -/
theorem find?_mergeSort :
    (entries.mergeSort fun left right => decide (left.address ≤ right.address)).find?
        (MatchEntry.isAt address) =
      entries.find? (MatchEntry.isAt address) := by
  have level : (entries.filter (MatchEntry.isAt address)).Pairwise fun left right =>
      decide (left.address ≤ right.address) = true := by
    refine List.pairwise_of_forall_mem_list fun left here right there => decide_eq_true ?_
    rw [of_decide_eq_true (List.mem_filter.mp here).2,
      of_decide_eq_true (List.mem_filter.mp there).2]
    exact UInt64.le_refl _
  have kept := (List.sublist_mergeSort (Address.decide_le_trans MatchEntry.address)
    (Address.decide_le_total MatchEntry.address) level List.filter_sublist).filter
      (MatchEntry.isAt address)
  rw [List.filter_filter] at kept
  simp only [Bool.and_self] at kept
  have lengths := ((List.mergeSort_perm entries fun left right =>
    decide (left.address ≤ right.address)).filter (MatchEntry.isAt address)).length_eq
  rw [<- List.head?_filter, <- List.head?_filter, kept.eq_of_length lengths.symm]

end First

section Merge

variable {blocks : List ReadBlock} {hits : List (List Address)}

/-- The merged addresses rise strictly. -/
theorem mergeMatches_sorted :
    ((mergeMatches blocks hits).map MatchEntry.address).Pairwise fun address later =>
      address < later := by
  rw [List.pairwise_map]
  unfold mergeMatches
  exact (dropRepeats_sorted (Address.pairwise_mergeSort MatchEntry.address _)
    fun _ wrong => by contradiction).1

/-- Merging keeps the first entry of each address. -/
theorem find?_mergeMatches (address : Address) :
    (mergeMatches blocks hits).find? (MatchEntry.isAt address) =
      ((blocks.zip hits).flatMap fun pair => pair.1.entries pair.2).find?
        (MatchEntry.isAt address) := by
  have fresh : (none : Option Address) ≠ some address := nofun
  rw [mergeMatches, find?_dropRepeats fresh, find?_mergeSort]

/-- A merged entry is a match of a block. -/
theorem exists_of_mem_mergeMatches {entry : MatchEntry}
    (member : entry ∈ mergeMatches blocks hits) :
    ∃ pair, pair ∈ blocks.zip hits ∧ entry.address ∈ pair.2 ∧
      entry.regionIndex = pair.1.regionIndex := by
  have listed := dropRepeats_sublist.mem member
  rw [List.mem_mergeSort, List.mem_flatMap] at listed
  rcases listed with ⟨pair, among, inside⟩
  rcases List.mem_map.mp inside with ⟨address, found, rfl⟩
  exact ⟨pair, among, found, rfl⟩

/-- Every match of a block is merged. -/
theorem mem_mergeMatches {block : ReadBlock} {found : List Address} {address : Address}
    (pair : (block, found) ∈ blocks.zip hits) (hit : address ∈ found) :
    address ∈ (mergeMatches blocks hits).map MatchEntry.address := by
  have listed : (⟨address, block.regionIndex⟩ : MatchEntry) ∈
      (blocks.zip hits).flatMap fun pair => pair.1.entries pair.2 :=
    List.mem_flatMap.mpr ⟨(block, found), pair, List.mem_map.mpr ⟨address, hit, rfl⟩⟩
  have kept : ((mergeMatches blocks hits).find? (MatchEntry.isAt address)).isSome = true := by
    rw [find?_mergeMatches]
    exact List.find?_isSome.mpr ⟨_, listed, decide_eq_true rfl⟩
  rcases Option.isSome_iff_exists.mp kept with ⟨entry, known⟩
  have here : entry.isAt address = true := List.find?_some known
  exact List.mem_map.mpr ⟨entry, List.mem_of_find?_eq_some known, of_decide_eq_true here⟩

/-- The merged addresses are those that were found in some block. -/
theorem mem_map_mergeMatches (paired : blocks.length = hits.length) {address : Address} :
    address ∈ (mergeMatches blocks hits).map MatchEntry.address <-> address ∈ hits.flatten := by
  constructor
  · intro merged
    rcases List.mem_map.mp merged with ⟨entry, among, rfl⟩
    rcases exists_of_mem_mergeMatches among with ⟨pair, zipped, found, -⟩
    exact List.mem_flatten.mpr ⟨pair.2, (List.of_mem_zip zipped).2, found⟩
  · intro listed
    rcases List.mem_flatten.mp listed with ⟨found, among, hit⟩
    rcases List.getElem?_of_mem among with ⟨index, there⟩
    have inside := (List.getElem?_eq_some_iff.mp there).1
    have block := List.getElem?_eq_getElem (paired ▸ inside)
    exact mem_mergeMatches
      (List.mem_of_getElem? (List.getElem?_zip_eq_some.mpr ⟨block, there⟩)) hit

/-- Matches that were found do not vanish when they are merged. -/
theorem mergeMatches_ne_nil (paired : blocks.length = hits.length)
    (some : hits.flatten.length ≠ 0) : mergeMatches blocks hits ≠ [] := by
  intro none
  apply some
  apply List.length_eq_zero_iff.mpr
  apply List.eq_nil_iff_forall_not_mem.mpr
  intro address hit
  have merged := (mem_map_mergeMatches paired).mpr hit
  rw [none] at merged
  exact List.not_mem_nil merged

end Merge

end MemoryProbe
