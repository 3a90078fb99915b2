import MemoryProbe.Proofs.Region.Mappings
import MemoryProbe.Proofs.Region.Reach

namespace MemoryProbe

/-!
The tiling of an address space.  A survey of an ordered table goes through its regions and
the gaps between them, so that the visited regions lie side by side from zero up to the
highest end.  Every region that is not empty is one of them; whatever else is visited is a
gap.
-/

/-- Regions that are not empty and lie side by side from one place to another. -/
def Tiles (low high : Nat) : List Region -> Prop
  | [] => low = high
  | region :: rest =>
    region.base.toNat = low ∧ region.size.toNat ≠ 0 ∧
      Tiles (low + region.size.toNat) high rest

/-- The highest end of a table. -/
def tableStop : List Region -> Nat
  | [] => 0
  | region :: rest => max region.stop.toNat (tableStop rest)

/-- The gap before a region, if there is one. -/
def gapBefore (address : Address) (region : Region) : List Region :=
  if address < region.base then [Region.gap address (region.base.value - address.value)] else []

/-- A region, if it is not empty. -/
def ownTile (region : Region) : List Region :=
  if region.size = 0 then [] else [region]

/-- The regions of a table that are not empty, and the gaps before them. -/
def tiling (address : Address) : List Region -> List Region
  | [] => []
  | region :: rest => gapBefore address region ++ (ownTile region ++ tiling region.stop rest)

/-- The visit that is answered with a tile, at its base. -/
def Visit.ofTile (tile : Region) : Visit :=
  ⟨tile.base, .ok (some tile)⟩

/-- A survey that keeps all regions. -/
def Survey.whole : Survey :=
  { committedOnly := false }

section Tiles

variable {low middle high : Nat} {tiles : List Region}

theorem Tiles.append {later : List Region} (front : Tiles low middle tiles)
    (back : Tiles middle high later) : Tiles low high (tiles ++ later) := by
  induction tiles generalizing low with
  | nil =>
      cases front
      exact back
  | cons tile rest ih => exact ⟨front.1, front.2.1, ih front.2.2⟩

/-- Nothing lies below the beginning. -/
theorem Tiles.low_le (tiled : Tiles low high tiles) {tile : Region} (member : tile ∈ tiles) :
    low ≤ tile.base.toNat := by
  induction tiles generalizing low with
  | nil => exact absurd member List.not_mem_nil
  | cons first rest ih =>
      rcases List.mem_cons.mp member with rfl | later
      · exact Nat.le_of_eq tiled.1.symm
      · have above := ih tiled.2.2 later
        omega

/-- Tiles rise, and each ends at or before those that come after it. -/
theorem Tiles.pairwise (tiled : Tiles low high tiles) :
    tiles.Pairwise fun tile later =>
      tile.size.toNat ≠ 0 ∧ tile.base.toNat + tile.size.toNat ≤ later.base.toNat := by
  induction tiles generalizing low with
  | nil => exact List.Pairwise.nil
  | cons first rest ih =>
      refine List.Pairwise.cons (fun later member => ⟨tiled.2.1, ?_⟩) (ih tiled.2.2)
      have above := tiled.2.2.low_le member
      rw [tiled.1]
      exact above

theorem Tiles.nodup (tiled : Tiles low high tiles) : tiles.Nodup := by
  refine tiled.pairwise.imp fun {tile later} order same => ?_
  rw [same] at order
  omega

end Tiles

section Tiling

variable {address : Address} {table : List Region} {region : Region}

/-- A table all of whose regions begin at or above an address leaves a tiling from there
to its highest end. -/
theorem tiles_tiling (ordered : Ordered table)
    (above : forall region, region ∈ table -> address.toNat ≤ region.base.toNat) :
    Tiles address.toNat (max address.toNat (tableStop table)) (tiling address table) := by
  induction table generalizing address with
  | nil => exact (Nat.max_eq_left (Nat.zero_le _)).symm
  | cons region rest ih =>
      have low := above region List.mem_cons_self
      have ends := Region.stop_toNat (ordered.fits region List.mem_cons_self)
      have highest : max address.toNat (tableStop (region :: rest)) =
          max region.stop.toNat (tableStop rest) := by
        change max address.toNat (max region.stop.toNat (tableStop rest)) = _
        omega
      have gap : Tiles address.toNat region.base.toNat (gapBefore address region) := by
        simp only [gapBefore]
        split
        · rename_i below
          have less := Address.lt_iff_toNat_lt.mp below
          have size := (gap_stop below).1
          refine ⟨rfl, by omega, ?_⟩
          change _ + _ = _
          omega
        · rename_i begun
          exact Nat.le_antisymm low (Address.le_iff_toNat_le.mp (UInt64.not_lt.mp begun))
      have own : Tiles region.base.toNat region.stop.toNat (ownTile region) := by
        simp only [ownTile]
        split
        · rename_i empty
          rw [empty] at ends
          exact ends.symm
        · rename_i some
          refine ⟨rfl, fun none => some (UInt64.toNat_inj.mp none), ends.symm⟩
      have beyond := ih ordered.tail fun later member => by
        rw [ends]
        exact (List.pairwise_cons.mp ordered.pairwise).1 later member
      rw [highest]
      exact gap.append (own.append beyond)

/-- An ordered table tiles the address space up to its highest end. -/
theorem tiles_tiling_zero (ordered : Ordered table) :
    Tiles 0 (tableStop table) (tiling Address.zero table) := by
  have above : forall region, region ∈ table -> Address.zero.toNat ≤ region.base.toNat :=
    fun region _ => Nat.zero_le _
  have tiled := tiles_tiling ordered above
  rwa [show Address.zero.toNat = 0 from rfl, Nat.max_eq_right (Nat.zero_le _)] at tiled

/-- A region that is not empty is among the tiles. -/
theorem mem_tiling_of_mem (some : region.size ≠ 0) (member : region ∈ table) :
    region ∈ tiling address table := by
  induction table generalizing address with
  | nil => exact absurd member List.not_mem_nil
  | cons first rest ih =>
      rw [tiling, List.mem_append, List.mem_append]
      rcases List.mem_cons.mp member with rfl | later
      · refine Or.inr (Or.inl ?_)
        rw [ownTile, if_neg some]
        exact List.mem_singleton_self _
      · exact Or.inr (Or.inr (ih later))

/-- What is among the tiles and not in the table is a gap. -/
theorem mem_or_gap_of_mem_tiling {tile : Region} (member : tile ∈ tiling address table) :
    tile ∈ table ∨ tile = Region.gap tile.base tile.size := by
  induction table generalizing address with
  | nil => exact absurd member List.not_mem_nil
  | cons first rest ih =>
      rw [tiling, List.mem_append, List.mem_append, gapBefore, ownTile] at member
      rcases member with before | own | later
      · split at before
        · rw [List.mem_singleton.mp before]
          exact Or.inr rfl
        · exact absurd before List.not_mem_nil
      · split at own
        · exact absurd own List.not_mem_nil
        · rw [List.mem_singleton.mp own]
          exact Or.inl List.mem_cons_self
      · exact (ih later).imp_left (List.mem_cons_of_mem _)

/-- A test that no gap passes selects from the tiles what it selects from the table. -/
theorem filter_tiling {test : Region -> Bool}
    (gaps : forall base size, test (Region.gap base size) = false) :
    (tiling address table).filter test =
      table.filter fun region => decide (region.size ≠ 0) && test region := by
  induction table generalizing address with
  | nil => rfl
  | cons region rest ih =>
      have none : (gapBefore address region).filter test = [] := by
        simp only [gapBefore]
        split
        · rw [List.filter_cons_of_neg (by rw [gaps]; exact Bool.false_ne_true)]
          rfl
        · rfl
      have own : (ownTile region).filter test =
          [region].filter fun region => decide (region.size ≠ 0) && test region := by
        simp only [ownTile]
        split
        · rename_i empty
          rw [List.filter_cons_of_neg (by simp [empty])]
          rfl
        · rename_i some
          refine List.filter_congr fun other same => ?_
          rw [List.mem_singleton.mp same, decide_eq_true some, Bool.true_and]
      rw [tiling, List.filter_append, List.filter_append, none, own, ih, List.nil_append,
        <- List.filter_append]
      rfl

end Tiling

/-! ## Surveys of a table -/

section Visits

variable {query : Address -> Except (Halt MemoryError) (Option Region)} {address : Address}
  {table : List Region} {region : Region}

/-- A region that is not empty and ends above leads a survey to its end. -/
theorem visitsFrom_of_answer (answered : query address = .ok (some region))
    (some : region.size.toNat ≠ 0) (below : address < region.stop) :
    visitsFrom query address =
      ⟨address, .ok (.some region)⟩ :: visitsFrom query region.stop := by
  rw [visitsFrom_cons, answered, Visit.next?_some, next?_eq_stop some below, Option.elim_some]

/-- What ends at or below an address does not matter there. -/
theorem chart_cons_of_stop_le (past : region.stop ≤ address) :
    chart (region :: table) address = chart table address := by
  have misses : ¬ address < region.stop := UInt64.not_lt.mpr past
  rw [chart, List.find?_cons, decide_eq_false misses]
  rfl

theorem chart_cons_of_lt_stop (below : address < region.stop) :
    chart (region :: table) address =
      some (if region.base ≤ address then region
        else Region.gap address (region.base.value - address.value)) := by
  rw [chart, List.find?_cons, decide_eq_true below]
  rfl

/-- The visits of a table are its tiles, and one more above them that finds nothing. -/
theorem visitsFrom_eq_tiling (ordered : Ordered table)
    (above : forall region, region ∈ table -> address.toNat ≤ region.base.toNat)
    (charted : forall place, (place = address ∨
        ∃ region, region ∈ table ∧ (region.base = place ∨ region.stop = place)) ->
      query place = .ok (chart table place)) :
    ∃ top, visitsFrom query address =
      (tiling address table).map Visit.ofTile ++ [⟨top, .ok none⟩] := by
  induction table generalizing address with
  | nil =>
      refine ⟨address, ?_⟩
      rw [visitsFrom_cons, charted address (Or.inl rfl)]
      rfl
  | cons region rest ih =>
      have low := above region List.mem_cons_self
      have room := region.base_le_stop
      have behind : forall later, later ∈ rest ->
          region.stop.toNat ≤ later.base.toNat := by
        intro later member
        rw [Region.stop_toNat (ordered.fits region List.mem_cons_self)]
        exact (List.pairwise_cons.mp ordered.pairwise).1 later member
      have beyond : ∃ top, visitsFrom query region.stop =
          (tiling region.stop rest).map Visit.ofTile ++ [⟨top, .ok none⟩] := by
        refine ih ordered.tail behind fun place boundary => ?_
        have past : region.stop ≤ place := by
          rw [Address.le_iff_toNat_le]
          rcases boundary with rfl | ⟨later, member, rfl | rfl⟩
          · exact Nat.le_refl _
          · exact behind later member
          · exact Nat.le_trans (behind later member) later.base_le_stop
        rw [<- chart_cons_of_stop_le past]
        refine charted place (Or.inr ?_)
        rcases boundary with rfl | ⟨later, member, ends⟩
        · exact ⟨region, List.mem_cons_self, Or.inr rfl⟩
        · exact ⟨later, List.mem_cons_of_mem _ member, ends⟩
      have own : visitsFrom query region.base =
          (ownTile region).map Visit.ofTile ++ visitsFrom query region.stop := by
        have ends := Region.stop_toNat (ordered.fits region List.mem_cons_self)
        simp only [ownTile]
        split
        · rename_i empty
          rw [empty] at ends
          rw [show region.stop = region.base from Address.toNat_inj.mp ends]
          rfl
        · rename_i some
          have positive : region.size.toNat ≠ 0 := fun none => some (UInt64.toNat_inj.mp none)
          have below : region.base < region.stop := Address.lt_iff_toNat_lt.mpr (by omega)
          have answered := charted region.base
            (Or.inr ⟨region, List.mem_cons_self, Or.inl rfl⟩)
          rw [chart_cons_of_lt_stop below,
            if_pos (Address.le_iff_toNat_le.mpr (Nat.le_refl _))] at answered
          exact visitsFrom_of_answer answered positive below
      have gap : visitsFrom query address =
          (gapBefore address region).map Visit.ofTile ++ visitsFrom query region.base := by
        simp only [gapBefore]
        split
        · rename_i before
          have less := Address.lt_iff_toNat_lt.mp before
          rcases gap_stop before with ⟨size, ends⟩
          have misses : ¬ region.base ≤ address := UInt64.not_le.mpr before
          have answered := charted address (Or.inl rfl)
          rw [chart_cons_of_lt_stop (Address.lt_iff_toNat_lt.mpr (by omega)),
            if_neg misses] at answered
          rw [visitsFrom_of_answer answered (by omega) (by rw [ends]; exact before), ends]
          rfl
        · rename_i begun
          have reached := Address.le_iff_toNat_le.mp (UInt64.not_lt.mp begun)
          rw [Address.toNat_inj.mp (Nat.le_antisymm low reached)]
          rfl
      rcases beyond with ⟨top, beyond⟩
      refine ⟨top, ?_⟩
      rw [gap, own, beyond, tiling, List.map_append, List.map_append, List.append_assoc,
        List.append_assoc]

end Visits

section Runs

variable {survey : Survey} {tiles : List Region} {top : Address} {target : Target}

/-- The regions of such visits are the tiles. -/
theorem found_of_tiles (survey : Survey) (tiles : List Region) (top : Address) :
    survey.found (tiles.map Visit.ofTile ++ [⟨top, .ok none⟩]) = tiles.filter survey.keeps := by
  have regions : (tiles.map Visit.ofTile).filterMap Visit.region? = tiles := by
    rw [List.filterMap_map]
    exact List.filterMap_some
  rw [found_eq_filter, List.filterMap_append, regions]
  exact congrArg _ (List.append_nil tiles)

theorem warnings_of_tiles (pid : UInt32) (tiles : List Region) (top : Address) :
    Survey.warnings pid (tiles.map Visit.ofTile ++ [⟨top, .ok none⟩]) = [] := by
  refine List.filterMap_eq_nil_iff.mpr fun visit member => ?_
  rcases List.mem_append.mp member with among | last
  · rcases List.mem_map.mp among with ⟨tile, -, rfl⟩
    rfl
  · rw [List.mem_singleton.mp last]

@[simp]
theorem Survey.whole_keeps (region : Region) : Survey.whole.keeps region = true := by
  simp [whole, keeps]

end Runs

namespace Inspected

/-- Processes that answer from an ordered table: one that is written down, of which no
query fails where a survey comes to, and one that was opened on a listing of filled ranges
that are apart. -/
inductive Charted : Inspected -> Prop where
  | staged (process : StagedProcess)
    (ordered : Ordered (process.regions.map StagedRegion.region))
    (answers : forall place, process.failingQuery = some place ->
      isBoundary (process.regions.map StagedRegion.region) place = false) :
    Charted (.staged process)
  | live (machine : Machine) (pid : UInt32) (process : LiveProcess)
    (opened : LiveProcess.openOn machine pid = .ok process)
    (filled : forall mapping, mapping ∈ process.mappings -> mapping.start < mapping.stop)
    (apart : process.mappings.Pairwise Mapping.Apart) :
    Charted (.live process machine)

variable {process : Inspected}

theorem Charted.ordered (charted : process.Charted) : Ordered process.table := by
  cases charted with
  | staged process ordered answers => exact ordered
  | live machine pid process opened filled apart =>
      rcases LiveProcess.openOn_eq_ok_iff.mp opened with ⟨listing, mappings, -, -, rfl⟩
      exact Mapping.ordered_regions mappings filled apart

/-- The queries of a survey are answered from the table. -/
theorem Charted.query_eq (charted : process.Charted) {place : Address}
    (boundary : isBoundary process.table place = true) :
    process.target.query place = .ok (chart process.table place) := by
  refine (process.answers charted.ordered).charted place fun fails => ?_
  cases charted with
  | staged process ordered answers =>
      have other := answers place fails
      change isBoundary (process.regions.map StagedRegion.region) place = true at boundary
      rw [other] at boundary
      contradiction
  | live machine pid process opened filled apart => cases fails

/-- A survey of such a process selects from the tiling of its table, and warns of
nothing. -/
theorem Charted.run_eq {Cause : Type} (charted : process.Charted) (survey : Survey)
    (trace : Trace) :
    (survey.run process.target : Run Cause (List Region)) trace =
      (.ok ((tiling Address.zero process.table).filter survey.keeps), trace) := by
  have ordered := charted.ordered
  have answered : forall place, (place = Address.zero ∨ ∃ region, region ∈ process.table ∧
      (region.base = place ∨ region.stop = place)) ->
      process.target.query place = .ok (chart process.table place) := by
    intro place boundary
    refine charted.query_eq (isBoundary_iff.mpr (boundary.imp_left fun null => ?_))
    rw [null]
    rfl
  have above : forall region, region ∈ process.table ->
      Address.zero.toNat ≤ region.base.toNat := fun region _ => Nat.zero_le _
  rcases visitsFrom_eq_tiling ordered above answered with ⟨top, visited⟩
  rw [Survey.run_of_calm survey (process.answers ordered).calm, visited, found_of_tiles,
    warnings_of_tiles, List.append_nil]

/-- A survey of a process that answers from an ordered table.  Kept whole, the regions lie
side by side from zero to the highest end of the table; every region of the table that is
not empty is one of them, once, and all others are gaps.  Of committed regions that have a
least size, it finds those of the table that are not empty, in rising order.  For a process
of a machine they are the mappings that allow any access, whatever their order in the
listing. -/
theorem survey_tiles_address_space {Cause : Type} (process : Inspected)
    (charted : process.Charted) (minimumSize : Word) (trace : Trace) :
    ∃ tiles found,
      (Survey.whole.run process.target : Run Cause (List Region)) trace = (.ok tiles, trace) ∧
      (({ minimumSize := minimumSize } : Survey).run process.target :
        Run Cause (List Region)) trace = (.ok found, trace) ∧
      Tiles 0 (tableStop process.table) tiles ∧
      (forall region, region ∈ process.table -> region.size ≠ 0 -> tiles.count region = 1) ∧
      (forall tile, tile ∈ tiles ->
        tile ∈ process.table ∨ tile = Region.gap tile.base tile.size) ∧
      found = process.table.filter (fun region => decide (region.size ≠ 0) &&
        (region.isCommitted && decide (minimumSize ≤ region.size))) ∧
      (found.Pairwise fun region later => region.base < later.base) ∧
      (forall live machine, process = .live live machine ->
        ∃ listing, machine.readText (Machine.mapsPath live.pid) = .ok listing ∧
          Mapping.ofListing listing = .ok live.mappings ∧
          found.Perm ((live.mappings.filter fun mapping =>
            (mapping.protection.read || mapping.protection.write ||
              mapping.protection.execute) && decide (minimumSize ≤ mapping.size)).map
            (Mapping.region live.images))) := by
  have ordered := charted.ordered
  have tiled := tiles_tiling_zero ordered
  have selected : (tiling Address.zero process.table).filter
      ({ minimumSize := minimumSize } : Survey).keeps =
        process.table.filter fun region => decide (region.size ≠ 0) &&
          ({ minimumSize := minimumSize } : Survey).keeps region :=
    filter_tiling fun base size => rfl
  refine ⟨tiling Address.zero process.table, _, ?_, charted.run_eq _ trace, ?_, ?_, ?_,
    selected, ?_, ?_⟩
  · rw [charted.run_eq, List.filter_eq_self.mpr fun region _ => Survey.whole_keeps region]
  · exact tiled
  · intro region member some
    exact List.count_eq_one_of_mem tiled.nodup (mem_tiling_of_mem some member)
  · exact fun tile member => mem_or_gap_of_mem_tiling member
  · refine (tiled.pairwise.filter _).imp fun {region later} order => ?_
    exact Address.lt_iff_toNat_lt.mpr (by omega)
  · rintro live machine rfl
    cases charted with
    | live machine pid live opened filled apart =>
        rcases LiveProcess.openOn_eq_ok_iff.mp opened with ⟨listing, mappings, read, parsed, rfl⟩
        refine ⟨listing, read, parsed, ?_⟩
        rw [selected]
        refine ((Mapping.regions_perm mappings).filter _).trans ?_
        rw [List.filter_map]
        refine List.Perm.of_eq (congrArg _ (List.filter_congr fun mapping member => ?_))
        have some := Mapping.size_ne_zero (filled mapping member)
        have same := Mapping.region_isCommitted (ImageModule.ofMappings mappings) mapping
        simp [Survey.keeps, some, same, Protection.anyAccess]

/-- A listing that is out of order, of mappings for reading, for writing and for nothing. -/
def scatteredListing : List Char :=
  "8-9 r 0 0 0\n2-4 -w 0 0 0\n4-5 - 0 0 0\n".toList

/-- A machine that has that listing for every process. -/
def scatteredMachine : Machine where
  readFile _ := .ok (Text.utf8Bytes scatteredListing)
  listDirectory _ := .ok []
  readLink _ := .error .invalidText
  readMemory _ _ _ _ := .error 14

def scatteredProcess : LiveProcess :=
  LiveProcess.ofMappings 7 [⟨8, 9, { read := true }, 0, 0, none⟩,
    ⟨2, 4, { write := true }, 0, 0, none⟩, ⟨4, 5, Protection.none, 0, 0, none⟩]

theorem scatteredMachine_opens :
    LiveProcess.openOn scatteredMachine 7 = .ok scatteredProcess := by
  have read : scatteredMachine.readText (Machine.mapsPath 7) = .ok scatteredListing := by cbv
  have parsed : Mapping.ofListing scatteredListing = .ok scatteredProcess.mappings := by cbv
  exact LiveProcess.openOn_eq_ok_iff.mpr ⟨_, _, read, parsed, rfl⟩

/-- The tiles of that process reach up to nine; two of its mappings are found. -/
theorem survey_tiles_address_space_of_scattered :
    LiveProcess.openOn scatteredMachine 7 = .ok scatteredProcess ∧
    ∃ tiles found,
      (Survey.whole.run (scatteredProcess.target scatteredMachine) :
        Run MemoryError (List Region)) {} = (.ok tiles, {}) ∧
      (({} : Survey).run (scatteredProcess.target scatteredMachine) :
        Run MemoryError (List Region)) {} = (.ok found, {}) ∧
      Tiles 0 9 tiles ∧ found.map (fun region => region.base.value) = [2, 8] := by
  have charted : Charted (.live scatteredProcess scatteredMachine) :=
    .live scatteredMachine 7 scatteredProcess scatteredMachine_opens (by decide) (by decide)
  have highest : tableStop (table (.live scatteredProcess scatteredMachine)) = 9 := by cbv
  rcases @survey_tiles_address_space MemoryError (.live scatteredProcess scatteredMachine)
    charted 0 {} with ⟨tiles, found, whole, ran, tiled, -, -, selected, -⟩
  refine ⟨scatteredMachine_opens, tiles, found, whole, ran, highest ▸ tiled, ?_⟩
  rw [selected]
  cbv

end Inspected

end MemoryProbe
