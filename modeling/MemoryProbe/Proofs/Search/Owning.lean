import Mathlib
import MemoryProbe.Proofs.Search.Merging

namespace MemoryProbe

/-!
The region of a merged match.  An address can be found in several blocks.  Sorting leaves the
entries of one address in the order of their blocks, and the first of them is kept, so a merged
match has the region of the first block that it was found in.  In which order the matches of a
block come, and how often, makes no difference.
-/

/-- An address is among the matches of the block at an index. -/
def Held (hits : List (List Address)) (index : Nat) (address : Address) : Prop :=
  ∃ found, hits[index]? = some found ∧ address ∈ found

/-- An address is among the matches of a block, and of no block in front of it. -/
structure HeldFirst (hits : List (List Address)) (index : Nat) (address : Address) : Prop where
  held : Held hits index address
  fresh : forall earlier, earlier < index -> ¬Held hits earlier address

section Held

variable {hits : List (List Address)} {found : List Address} {index : Nat} {address : Address}

theorem held_zero : Held (found :: hits) 0 address <-> address ∈ found := by
  simp [Held]

theorem held_succ : Held (found :: hits) (index + 1) address <-> Held hits index address := by
  simp [Held]

theorem heldFirst_zero : HeldFirst (found :: hits) 0 address <-> address ∈ found :=
  ⟨fun first => held_zero.mp first.held,
    fun member => ⟨held_zero.mpr member, fun _ before => absurd before (Nat.not_lt_zero _)⟩⟩

theorem heldFirst_succ :
    HeldFirst (found :: hits) (index + 1) address <->
      address ∉ found ∧ HeldFirst hits index address := by
  constructor
  · rintro ⟨held, fresh⟩
    exact ⟨fun member => fresh 0 (Nat.succ_pos _) (held_zero.mpr member), held_succ.mp held,
      fun earlier before member =>
        fresh (earlier + 1) (Nat.succ_lt_succ before) (held_succ.mpr member)⟩
  · rintro ⟨absent, held, fresh⟩
    refine ⟨held_succ.mpr held, fun earlier before => ?_⟩
    cases earlier with
    | zero => exact fun member => absent (held_zero.mp member)
    | succ earlier =>
        exact fun member => fresh earlier (Nat.lt_of_succ_lt_succ before) (held_succ.mp member)

/-- Which block is the first to hold an address depends on the blocks up to it. -/
theorem heldFirst_congr {others : List (List Address)}
    (same : forall place, place ≤ index ->
      (Held others place address <-> Held hits place address)) :
    HeldFirst others index address <-> HeldFirst hits index address := by
  constructor
  · exact fun first => ⟨(same index (Nat.le_refl _)).mp first.held, fun earlier before held =>
      first.fresh earlier before ((same earlier (Nat.le_of_lt before)).mpr held)⟩
  · exact fun first => ⟨(same index (Nat.le_refl _)).mpr first.held, fun earlier before held =>
      first.fresh earlier before ((same earlier (Nat.le_of_lt before)).mp held)⟩

/-- Of the blocks that hold an address, one comes first. -/
theorem Held.exists_first (held : Held hits index address) :
    ∃ first, first ≤ index ∧ HeldFirst hits first address := by
  classical
  have some : ∃ place, Held hits place address := ⟨index, held⟩
  exact ⟨Nat.find some, Nat.find_min' some held, Nat.find_spec some,
    fun _ before => Nat.find_min some before⟩

end Held

/-! ## The first entry of an address -/

section Entries

variable {address : Address} {entries : List MatchEntry}

/-- In a list of rising addresses an entry is found by its address. -/
theorem find?_eq_some_of_mem {entry : MatchEntry}
    (rising : entries.Pairwise fun entry later => entry.address < later.address)
    (member : entry ∈ entries) : entries.find? (MatchEntry.isAt entry.address) = some entry := by
  induction entries with
  | nil => exact absurd member List.not_mem_nil
  | cons first rest ih =>
      rcases List.pairwise_cons.mp rising with ⟨below, later⟩
      rcases List.mem_cons.mp member with rfl | among
      · exact List.find?_cons_of_pos (decide_eq_true rfl)
      · have misses : ¬first.isAt entry.address = true := by
          intro hits
          have less := below entry among
          rw [of_decide_eq_true hits] at less
          exact UInt64.lt_irrefl _ less
        rw [List.find?_cons_of_neg misses]
        exact ih later among

/-- A block has an entry of an address if the address is among its matches. -/
theorem find?_entries_of_block (block : ReadBlock) (found : List Address) :
    (block.entries found).find? (MatchEntry.isAt address) =
      if address ∈ found then some ⟨address, block.regionIndex⟩ else none := by
  unfold ReadBlock.entries
  induction found with
  | nil => rfl
  | cons first rest ih =>
      rw [List.map_cons]
      by_cases here : first = address
      · have hits : MatchEntry.isAt address ⟨first, block.regionIndex⟩ = true :=
          decide_eq_true here
        rw [List.find?_cons_of_pos hits, here, if_pos List.mem_cons_self]
      · have misses : ¬MatchEntry.isAt address ⟨first, block.regionIndex⟩ = true :=
          fun hits => here (of_decide_eq_true hits)
        have same : (address ∈ first :: rest) = (address ∈ rest) := by
          rw [List.mem_cons, or_iff_right (Ne.symm here)]
        rw [List.find?_cons_of_neg misses, ih]
        simp only [same]

/-- The first entry of an address among the matches of all blocks is that of the first block
that holds it. -/
theorem find?_entries {blocks : List ReadBlock} {hits : List (List Address)}
    {entry : MatchEntry} :
    ((blocks.zip hits).flatMap fun pair => pair.1.entries pair.2).find?
        (MatchEntry.isAt address) = some entry <->
      ∃ index block, blocks[index]? = some block ∧ HeldFirst hits index address ∧
        entry = ⟨address, block.regionIndex⟩ := by
  induction blocks generalizing hits with
  | nil => simp
  | cons block blocks ih =>
      cases hits with
      | nil =>
          simp only [List.zip_nil_right, List.flatMap_nil, List.find?_nil, reduceCtorEq, false_iff]
          rintro ⟨index, other, -, ⟨⟨found, listed, -⟩, -⟩, -⟩
          cases listed
      | cons found hits =>
          rw [List.zip_cons_cons, List.flatMap_cons, List.find?_append, find?_entries_of_block]
          by_cases member : address ∈ found
          · rw [if_pos member, Option.some_or, Option.some.injEq]
            constructor
            · rintro rfl
              exact ⟨0, block, rfl, heldFirst_zero.mpr member, rfl⟩
            · rintro ⟨index, other, here, first, rfl⟩
              cases index with
              | zero =>
                  cases here
                  rfl
              | succ index => exact absurd member (heldFirst_succ.mp first).1
          · rw [if_neg member, Option.none_or, ih]
            constructor
            · rintro ⟨index, other, here, first, rfl⟩
              exact ⟨index + 1, other, here, heldFirst_succ.mpr ⟨member, first⟩, rfl⟩
            · rintro ⟨index, other, here, first, rfl⟩
              cases index with
              | zero => exact absurd (heldFirst_zero.mp first) member
              | succ index => exact ⟨index, other, here, (heldFirst_succ.mp first).2, rfl⟩

end Entries

/-! ## Merged matches -/

section Merge

variable {blocks : List ReadBlock} {hits : List (List Address)}

theorem mergeMatches_rising :
    (mergeMatches blocks hits).Pairwise fun entry later => entry.address < later.address :=
  List.pairwise_map.mp mergeMatches_sorted

/-- The merged entries are the addresses that some block holds, each with the region of the
first block that does. -/
theorem mem_mergeMatches_iff {entry : MatchEntry} :
    entry ∈ mergeMatches blocks hits <->
      ∃ index block, blocks[index]? = some block ∧ HeldFirst hits index entry.address ∧
        entry.regionIndex = block.regionIndex := by
  have found : entry ∈ mergeMatches blocks hits <->
      (mergeMatches blocks hits).find? (MatchEntry.isAt entry.address) = some entry :=
    ⟨find?_eq_some_of_mem mergeMatches_rising, List.mem_of_find?_eq_some⟩
  rw [found, find?_mergeMatches, find?_entries]
  refine exists_congr fun index => exists_congr fun block => and_congr_right fun _ =>
    and_congr_right fun _ => ?_
  cases entry
  simp

/-- Rising lists with the same entries are the same. -/
theorem eq_of_rising {entries others : List MatchEntry}
    (rising : entries.Pairwise fun entry later => entry.address < later.address)
    (rising' : others.Pairwise fun entry later => entry.address < later.address)
    (same : forall entry, entry ∈ entries <-> entry ∈ others) : entries = others := by
  have apart : Std.Asymm fun entry later : MatchEntry => entry.address < later.address :=
    ⟨fun _ _ less more => UInt64.lt_asymm less more⟩
  exact rising.eq_of_mem_iff rising' same

/-- Merging the matches of some blocks, of which there may be more or fewer than lists of
matches.  The merged addresses rise strictly.  They are those that are among the matches of a
block, and each comes with the region of the first of these blocks.  So all that counts is which
addresses each block holds; their order within a block and their repeats do not. -/
theorem merge_keeps_first_holder (blocks : List ReadBlock) (hits : List (List Address)) :
    ((mergeMatches blocks hits).Pairwise fun entry later => entry.address < later.address) ∧
    (forall address, address ∈ (mergeMatches blocks hits).map MatchEntry.address <->
      ∃ index, index < blocks.length ∧ Held hits index address) ∧
    (forall entry, entry ∈ mergeMatches blocks hits <->
      ∃ index block, blocks[index]? = some block ∧ HeldFirst hits index entry.address ∧
        entry.regionIndex = block.regionIndex) ∧
    forall others : List (List Address),
      (forall index address, index < blocks.length ->
        (Held others index address <-> Held hits index address)) ->
      mergeMatches blocks others = mergeMatches blocks hits := by
  refine ⟨mergeMatches_rising, fun address => ⟨fun merged => ?_, ?_⟩,
    fun entry => mem_mergeMatches_iff, fun others same => ?_⟩
  · rcases List.mem_map.mp merged with ⟨entry, member, rfl⟩
    rcases mem_mergeMatches_iff.mp member with ⟨index, block, here, first, -⟩
    exact ⟨index, (List.getElem?_eq_some_iff.mp here).1, first.held⟩
  · rintro ⟨index, inside, held⟩
    rcases held.exists_first with ⟨place, early, first⟩
    have here := List.getElem?_eq_getElem (Nat.lt_of_le_of_lt early inside)
    exact List.mem_map.mpr ⟨⟨address, _⟩, mem_mergeMatches_iff.mpr ⟨place, _, here, first, rfl⟩,
      rfl⟩
  · refine eq_of_rising mergeMatches_rising mergeMatches_rising fun entry => ?_
    rw [mem_mergeMatches_iff, mem_mergeMatches_iff]
    refine exists_congr fun index => exists_congr fun block => and_congr_right fun here => ?_
    have inside := (List.getElem?_eq_some_iff.mp here).1
    rw [heldFirst_congr fun place early => same place entry.address
      (Nat.lt_of_le_of_lt early inside)]

/-- Two blocks with a common part, which belong to different regions. -/
def tiedBlocks : List ReadBlock :=
  [⟨⟨2⟩, 8, 5⟩, ⟨⟨1⟩, 6, 3⟩]

/-- A match of both blocks has the region of the first one.  Other orders, repeats and a list
without a block change nothing. -/
theorem merge_keeps_first_holder_of_tie :
    (⟨⟨4⟩, 5⟩ : MatchEntry) ∈ mergeMatches tiedBlocks [[⟨9⟩, ⟨4⟩], [⟨4⟩, ⟨2⟩]] ∧
    mergeMatches tiedBlocks [[⟨4⟩, ⟨9⟩], [⟨2⟩, ⟨4⟩, ⟨4⟩], [⟨7⟩]] =
      mergeMatches tiedBlocks [[⟨9⟩, ⟨4⟩], [⟨4⟩, ⟨2⟩]] := by
  rcases merge_keeps_first_holder tiedBlocks [[⟨9⟩, ⟨4⟩], [⟨4⟩, ⟨2⟩]] with
    ⟨-, -, entries, equal⟩
  refine ⟨(entries _).mpr ⟨0, _, rfl, heldFirst_zero.mpr (by decide), rfl⟩,
    equal _ fun index address inside => ?_⟩
  match index, inside with
  | 0, _ => simp [held_zero, or_comm]
  | 1, _ => simp [held_succ, held_zero, or_comm]

end Merge

end MemoryProbe
