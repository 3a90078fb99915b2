import MemoryProbe.Proofs.Search.Overlap
import MemoryProbe.Proofs.Search.Reporting

namespace MemoryProbe

/-!
The parts of a report.  A list of matches is printed as a sequence of heads of regions and
of found addresses.  A head is printed wherever the region changes along the merged list.
The merged addresses rise and the regions lie one behind the other, so that the matches of
a region stand together, and every region with a match has one head.
-/

/-- A place lies in a region. -/
def Region.Holds (region : Region) (place : Nat) : Prop :=
  region.base.toNat ≤ place ∧ place < region.base.toNat + region.size.toNat

/-- A part of a printed list of matches. -/
inductive ReportPart where
  /-- The head of the region of that index, with the name of its module. -/
  | head (index : Nat) (region : Region) (moduleName : Option String)
  | found (address : Address)

namespace ReportPart

/-- The printed form.  A head is set apart from what stands before it. -/
def text : ReportPart -> String
  | head _ region moduleName => "\n" ++ (String.join (region.header moduleName) ++ "\n")
  | found address => "\tMatch at address: " ++ address.text ++ "\n"

def address? : ReportPart -> Option Address
  | head _ _ _ => none
  | found address => some address

def region? : ReportPart -> Option Nat
  | head index _ _ => some index
  | found _ => none

end ReportPart

namespace MatchReport

variable {report : MatchReport} {current : Option Nat} {entries : List MatchEntry}

/-- The head above a match, if its region is not the one that was printed last. -/
def heads (report : MatchReport) (current : Option Nat) (entry : MatchEntry) :
    List ReportPart :=
  if current = some entry.regionIndex then []
  else (report.regions[entry.regionIndex]?).toList.map fun region =>
    .head entry.regionIndex region (report.target.regionModule region)

/-- The parts of a list of matches, below the region that was printed last. -/
def parts (report : MatchReport) (current : Option Nat) : List MatchEntry -> List ReportPart
  | [] => []
  | entry :: rest => report.heads current entry ++
      .found entry.address :: report.parts (some entry.regionIndex) rest

/-- The line of the number of matches. -/
def countLine (count : Nat) : String :=
  "*** Approximate number of matches: " ++ toString count ++ " ***\n"

/-- What the parts of a report tell of the matches that were found in each block. -/
structure Groups (report : MatchReport) (hits : List (List Address))
    (parts : List ReportPart) : Prop where
  addresses : parts.filterMap ReportPart.address? =
    (mergeMatches report.blocks hits).map MatchEntry.address
  rising : (parts.filterMap ReportPart.address?).Pairwise fun address later => address < later
  /-- No region has two heads. -/
  once : (parts.filterMap ReportPart.region?).Nodup
  headed : forall index region, report.regions[index]? = some region ->
    (index ∈ parts.filterMap ReportPart.region? <->
      ∃ address, address ∈ hits.flatten ∧ region.Holds address.toNat)
  named : forall index region moduleName, .head index region moduleName ∈ parts ->
    report.regions[index]? = some region ∧
      forall path, moduleName = some path <->
        region.isImage = true ∧ report.target.modulePath region.allocationBase = some path
  /-- A match lies in the region of the last head above it. -/
  below : forall before address after, parts = before ++ .found address :: after ->
    ∃ upper index region moduleName lower,
      before = upper ++ .head index region moduleName :: lower ∧
      (forall part, part ∈ lower -> part.region? = none) ∧ region.Holds address.toNat

/-! ## The parts of a list -/

theorem heads_of_same {entry : MatchEntry} (same : current = some entry.regionIndex) :
    report.heads current entry = [] :=
  if_pos same

theorem heads_of_new {entry : MatchEntry} {region : Region}
    (new : current ≠ some entry.regionIndex)
    (there : report.regions[entry.regionIndex]? = some region) :
    report.heads current entry =
      [.head entry.regionIndex region (report.target.regionModule region)] := by
  unfold heads
  rw [if_neg new, there]
  rfl

/-- The regions of matches are regions of the report. -/
def Valid (report : MatchReport) (entries : List MatchEntry) : Prop :=
  forall entry, entry ∈ entries -> ∃ region, report.regions[entry.regionIndex]? = some region

theorem Valid.tail {entry : MatchEntry} (valid : report.Valid (entry :: entries)) :
    report.Valid entries :=
  fun other member => valid other (List.mem_cons_of_mem _ member)

section Printed

variable {Cause : Type} [OfIoError Cause] {trace later : Trace}

/-- An entry whose region is not the one above it is printed only if that region exists, and
the others are printed behind it. -/
theorem exists_of_listEntries_cons {entry : MatchEntry}
    (printed : (report.listEntries current (entry :: entries) : Run Cause Unit) trace =
      (.ok (), later)) :
    (current = some entry.regionIndex ∨
      ∃ region, report.regions[entry.regionIndex]? = some region) ∧
    ∃ middle, (report.listEntries (some entry.regionIndex) entries : Run Cause Unit) middle =
      (.ok (), later) := by
  unfold listEntries at printed
  by_cases same : current = some entry.regionIndex
  · rw [if_neg (not_not_intro same)] at printed
    rcases Run.exists_of_bind printed with ⟨_, middle, -, others⟩
    exact ⟨Or.inl same, middle, others⟩
  · rw [if_pos same] at printed
    cases there : report.regions[entry.regionIndex]? with
    | none =>
        rw [there] at printed
        dsimp only at printed
        split at printed
        · rcases Run.exists_of_bind printed with ⟨_, _, -, halted⟩
          cases halted
        · cases printed
    | some region =>
        rw [there] at printed
        dsimp only at printed
        -- Behind the line that may set the head apart.
        have headed : ∃ begun, ((region.header (report.target.regionModule region)).forM
            Run.write >>= fun _ => Run.writeLine "" >>= fun _ =>
            Run.writeLine ("\tMatch at address: " ++ entry.address.text) >>= fun _ =>
            report.listEntries (some entry.regionIndex) entries : Run Cause Unit) begun =
            (.ok (), later) := by
          split at printed
          · rcases Run.exists_of_bind printed with ⟨_, begun, -, others⟩
            exact ⟨begun, others⟩
          · exact ⟨trace, printed⟩
        rcases headed with ⟨begun, others⟩
        rcases Run.exists_of_bind others with ⟨_, _, -, spaced⟩
        rcases Run.exists_of_bind spaced with ⟨_, _, -, told⟩
        rcases Run.exists_of_bind told with ⟨_, middle, -, later⟩
        exact ⟨Or.inr ⟨region, rfl⟩, middle, later⟩

/-- Entries are printed to the end only if their regions exist. -/
theorem valid_of_listEntries
    (above : forall index, current = some index -> ∃ region, report.regions[index]? = some region)
    (printed : (report.listEntries current entries : Run Cause Unit) trace = (.ok (), later)) :
    report.Valid entries := by
  induction entries generalizing current trace with
  | nil => exact fun entry member => absurd member List.not_mem_nil
  | cons entry rest ih =>
      rcases exists_of_listEntries_cons printed with ⟨known, middle, others⟩
      have here : ∃ region, report.regions[entry.regionIndex]? = some region :=
        known.elim (above _) id
      intro other member
      rcases List.mem_cons.mp member with rfl | among
      · exact here
      · exact ih (fun index same => Option.some.inj same ▸ here) others other among

end Printed

/-- Below a head, the parts of a list print what is printed for its entries. -/
theorem join_parts_some (valid : report.Valid entries) (index : Nat) :
    String.join ((report.parts (some index) entries).map ReportPart.text) =
      report.entriesText (some index) entries := by
  induction entries generalizing index with
  | nil => rfl
  | cons entry rest ih =>
      rcases valid entry List.mem_cons_self with ⟨region, there⟩
      have later := ih valid.tail entry.regionIndex
      unfold parts entriesText
      dsimp only
      by_cases same : some index = some entry.regionIndex
      · rw [heads_of_same same, if_pos same, List.nil_append, List.map_cons, String.join_cons,
          later, String.empty_append]
        rfl
      · rw [heads_of_new same there, if_neg same, there, List.singleton_append, List.map_cons,
          List.map_cons, String.join_cons, String.join_cons, later]
        unfold ReportPart.text headText
        simp only [String.append_assoc, Option.map_some, Option.getD_some, Option.isSome_some,
          if_true]

/-- The line before the first head belongs to the line of the number of matches. -/
theorem join_parts_none (valid : report.Valid entries) (some : entries ≠ []) :
    String.join ((report.parts none entries).map ReportPart.text) =
      "\n" ++ report.entriesText none entries := by
  rcases entries with _ | ⟨entry, rest⟩
  · exact absurd rfl some
  rcases valid entry List.mem_cons_self with ⟨region, there⟩
  have new : none ≠ Option.some entry.regionIndex := nofun
  unfold parts entriesText
  dsimp only
  rw [heads_of_new new there, if_neg new, there, List.singleton_append, List.map_cons,
    List.map_cons, String.join_cons, String.join_cons, join_parts_some valid.tail]
  unfold ReportPart.text headText
  simp only [String.append_assoc, Option.map_some, Option.getD_some, Option.isSome_none,
    Bool.false_eq_true, if_false, String.empty_append]

theorem filterMap_address?_heads (entry : MatchEntry) :
    (report.heads current entry).filterMap ReportPart.address? = [] := by
  unfold heads
  split
  · rfl
  · cases report.regions[entry.regionIndex]? with
    | none => rfl
    | some region => rfl

/-- The parts of a list tell its addresses. -/
theorem filterMap_address?_parts :
    (report.parts current entries).filterMap ReportPart.address? =
      entries.map MatchEntry.address := by
  induction entries generalizing current with
  | nil => rfl
  | cons entry rest ih =>
      unfold parts
      rw [List.filterMap_append, filterMap_address?_heads, List.nil_append, List.map_cons, <- ih]
      rfl

/-- A head among the parts is that of a region of some entry. -/
theorem of_head_mem {index : Nat} {region : Region} {moduleName : Option String}
    (member : .head index region moduleName ∈ report.parts current entries) :
    report.regions[index]? = some region ∧ moduleName = report.target.regionModule region ∧
      index ∈ entries.map MatchEntry.regionIndex := by
  induction entries generalizing current with
  | nil => exact absurd member List.not_mem_nil
  | cons entry rest ih =>
      rcases List.mem_append.mp member with above | below
      · unfold heads at above
        split at above
        · exact absurd above List.not_mem_nil
        · rcases List.mem_map.mp above with ⟨other, there, same⟩
          cases same
          exact ⟨Option.mem_toList.mp there, rfl, List.mem_cons_self⟩
      · rcases List.mem_cons.mp below with same | later
        · cases same
        · rcases ih later with ⟨there, named, among⟩
          exact ⟨there, named, List.mem_cons_of_mem _ among⟩

/-- A region that is told of among the parts is one of an entry. -/
theorem mem_of_region_mem {index : Nat}
    (member : index ∈ (report.parts current entries).filterMap ReportPart.region?) :
    index ∈ entries.map MatchEntry.regionIndex := by
  rcases List.mem_filterMap.mp member with ⟨part, among, same⟩
  cases part with
  | head other region moduleName =>
      cases same
      exact (of_head_mem among).2.2
  | found address => cases same

/-- If the regions of the entries come in their order, so do the heads, and each of them
comes once. -/
theorem regions_rise (valid : report.Valid entries)
    (ordered : entries.Pairwise fun entry later => entry.regionIndex ≤ later.regionIndex)
    (above : forall index, current = some index ->
      forall entry, entry ∈ entries -> index ≤ entry.regionIndex) :
    ((report.parts current entries).filterMap ReportPart.region?).Pairwise (fun index later =>
      index < later) ∧
    forall index, current = some index ->
      forall later, later ∈ (report.parts current entries).filterMap ReportPart.region? ->
        index < later := by
  induction entries generalizing current with
  | nil => exact ⟨.nil, fun _ _ later member => absurd member List.not_mem_nil⟩
  | cons entry rest ih =>
      rcases List.pairwise_cons.mp ordered with ⟨least, others⟩
      rcases @ih (some entry.regionIndex) valid.tail others
        (fun index same other member => Option.some.inj same ▸ least other member) with
        ⟨rise, follow⟩
      unfold parts
      rw [List.filterMap_append, List.filterMap_cons_none rfl]
      by_cases same : current = some entry.regionIndex
      · rw [heads_of_same same]
        exact ⟨rise, fun index begins => follow index (same ▸ begins)⟩
      · rcases valid entry List.mem_cons_self with ⟨region, there⟩
        rw [heads_of_new same there]
        refine ⟨List.pairwise_cons.mpr ⟨follow entry.regionIndex rfl, rise⟩, ?_⟩
        intro index begins later member
        have low := above index begins entry List.mem_cons_self
        have differs : index ≠ entry.regionIndex := fun equal => same (equal ▸ begins)
        rcases List.mem_cons.mp member with rfl | after
        · omega
        · have beyond := follow entry.regionIndex rfl later after
          omega

/-- Each region of an entry is told of, unless it was printed before. -/
theorem region_mem_of_mem (valid : report.Valid entries) {entry : MatchEntry}
    (member : entry ∈ entries) : current = some entry.regionIndex ∨
      entry.regionIndex ∈ (report.parts current entries).filterMap ReportPart.region? := by
  induction entries generalizing current with
  | nil => exact absurd member List.not_mem_nil
  | cons first rest ih =>
      unfold parts
      rw [List.filterMap_append, List.filterMap_cons_none rfl]
      by_cases same : current = some first.regionIndex
      · rw [heads_of_same same, List.filterMap_nil, List.nil_append]
        rcases List.mem_cons.mp member with rfl | later
        · exact Or.inl same
        · rw [same]
          exact ih valid.tail later
      · rcases valid first List.mem_cons_self with ⟨region, there⟩
        rw [heads_of_new same there]
        right
        rcases List.mem_cons.mp member with rfl | later
        · exact List.mem_cons_self
        · rcases @ih (some first.regionIndex) valid.tail later with equal | told
          · rw [<- Option.some.inj equal]
            exact List.mem_cons_self
          · exact List.mem_cons_of_mem _ told

/-- The head of a region stands above a part, and no other head between them. -/
def HeadedBy (index : Nat) (before : List ReportPart) : Prop :=
  ∃ upper region moduleName lower, before = upper ++ .head index region moduleName :: lower ∧
    forall part, part ∈ lower -> part.region? = none

/-- Nothing changes if more stands above. -/
theorem HeadedBy.append {index : Nat} {before : List ReportPart} (headed : HeadedBy index before)
    (above : List ReportPart) : HeadedBy index (above ++ before) := by
  rcases headed with ⟨upper, region, moduleName, lower, rfl, free⟩
  exact ⟨above ++ upper, region, moduleName, lower, (List.append_assoc _ _ _).symm, free⟩

/-- Above a found address stands the head of its region, unless that region was printed
before all parts. -/
theorem exists_of_found (valid : report.Valid entries) {before after : List ReportPart}
    {address : Address}
    (split : report.parts current entries = before ++ .found address :: after) :
    ∃ entry, entry ∈ entries ∧ entry.address = address ∧
      ((current = some entry.regionIndex ∧ forall part, part ∈ before -> part.region? = none) ∨
        HeadedBy entry.regionIndex before) := by
  induction entries generalizing current before with
  | nil => exact absurd split (List.append_ne_nil_of_right_ne_nil _ (List.cons_ne_nil _ _)).symm
  | cons first rest ih =>
      -- What stands behind the first address, as the first part is its head or itself.
      have behind {lower : List ReportPart}
          (same : .found first.address :: report.parts (some first.regionIndex) rest =
            lower ++ .found address :: after) :
          ∃ entry, entry ∈ first :: rest ∧ entry.address = address ∧
            ((first.regionIndex = entry.regionIndex ∧
                forall part, part ∈ lower -> part.region? = none) ∨
              HeadedBy entry.regionIndex lower) := by
        cases lower with
        | nil =>
            cases same
            exact ⟨first, List.mem_cons_self, rfl,
              Or.inl ⟨rfl, fun part member => absurd member List.not_mem_nil⟩⟩
        | cons part lower =>
            rcases List.cons.inj same with ⟨rfl, tail⟩
            rcases ih valid.tail tail with ⟨entry, among, equal, ⟨begun, free⟩ | headed⟩
            · refine ⟨entry, List.mem_cons_of_mem _ among, equal,
                Or.inl ⟨Option.some.inj begun, fun part member => ?_⟩⟩
              rcases List.mem_cons.mp member with rfl | later
              · rfl
              · exact free part later
            · exact ⟨entry, List.mem_cons_of_mem _ among, equal,
                Or.inr (headed.append [.found first.address])⟩
      unfold parts at split
      by_cases same : current = some first.regionIndex
      · rw [heads_of_same same] at split
        rcases behind split with ⟨entry, among, equal, ⟨begun, free⟩ | headed⟩
        · exact ⟨entry, among, equal, Or.inl ⟨begun ▸ same, free⟩⟩
        · exact ⟨entry, among, equal, Or.inr headed⟩
      · rcases valid first List.mem_cons_self with ⟨region, there⟩
        rw [heads_of_new same there] at split
        cases before with
        | nil => cases (List.cons.inj split).1
        | cons head lower =>
            rcases List.cons.inj split with ⟨rfl, tail⟩
            rcases behind tail with ⟨entry, among, equal, ⟨begun, free⟩ | headed⟩
            · refine ⟨entry, among, equal, Or.inr ?_⟩
              rw [<- begun]
              exact ⟨[], region, _, lower, rfl, free⟩
            · exact ⟨entry, among, equal, Or.inr (headed.append [_])⟩

/-! ## Matches of planned blocks -/

section Merged

variable {layout : BlockLayout} {hits : List (List Address)}

/-- The matches of blocks lie in them. -/
def Inside (blocks : List ReadBlock) (hits : List (List Address)) : Prop :=
  List.Forall₂ (fun block found => forall address, address ∈ found ->
    block.Spans address.toNat 1) blocks hits

/-- A merged match lies in the region that it names. -/
theorem holds_of_merged (planned : layout.plan report.regions = .ok report.blocks)
    (inside : Inside report.blocks hits) {entry : MatchEntry}
    (member : entry ∈ mergeMatches report.blocks hits) :
    ∃ region, report.regions[entry.regionIndex]? = some region ∧
      region.Holds entry.address.toNat := by
  rcases exists_of_mem_mergeMatches member with ⟨⟨block, found⟩, zipped, hit, named⟩
  rcases BlockLayout.exists_region_of_plan planned (List.of_mem_zip zipped).1 with
    ⟨region, there, low, high⟩
  have spans := (List.forall₂_iff_zip.mp inside).2 zipped entry.address hit
  have least := spans.start_le
  have most := spans.le_stop
  exact ⟨region, named ▸ there, by omega, by omega⟩

theorem valid_merged (planned : layout.plan report.regions = .ok report.blocks)
    (inside : Inside report.blocks hits) :
    report.Valid (mergeMatches report.blocks hits) := by
  intro entry member
  rcases holds_of_merged planned inside member with ⟨region, there, -⟩
  exact ⟨region, there⟩

/-- Of two places in regions, the lower one lies in no later region. -/
theorem index_le_of_le {regions : List Region}
    (ascending : regions.Pairwise fun region later => region.base ≤ later.base)
    (apart : regions.Pairwise Region.Apart) {index other : Nat} {region another : Region}
    (here : regions[index]? = some region) (there : regions[other]? = some another)
    {place beyond : Nat} (holds : region.Holds place) (also : another.Holds beyond)
    (less : place ≤ beyond) : index ≤ other := by
  by_contra! after
  rcases List.getElem?_eq_some_iff.mp here with ⟨inside, rfl⟩
  rcases List.getElem?_eq_some_iff.mp there with ⟨within, rfl⟩
  have base := Address.le_iff_toNat_le.mp
    (List.pairwise_iff_getElem.mp ascending other index within inside after)
  have parted := List.pairwise_iff_getElem.mp apart other index within inside after
  rcases holds with ⟨low, high⟩
  rcases also with ⟨-, top⟩
  exact parted place ⟨⟨Nat.le_trans base low, by omega⟩, low, high⟩

variable (ascending : report.regions.Pairwise fun region later => region.base ≤ later.base)
  (apart : report.regions.Pairwise Region.Apart)
  (planned : layout.plan report.regions = .ok report.blocks)
  (inside : Inside report.blocks hits)

include ascending apart planned inside

/-- The regions of the merged matches come in their order. -/
theorem merged_regions_rise : (mergeMatches report.blocks hits).Pairwise fun entry later =>
    entry.regionIndex ≤ later.regionIndex := by
  have rising := List.pairwise_map.mp (@mergeMatches_sorted report.blocks hits)
  refine List.Pairwise.imp_of_mem ?_ rising
  intro entry later member among less
  rcases holds_of_merged planned inside member with ⟨region, here, holds⟩
  rcases holds_of_merged planned inside among with ⟨another, there, also⟩
  exact index_le_of_le ascending apart here there holds also
    (Nat.le_of_lt (Address.lt_iff_toNat_lt.mp less))

/-- A region holds a match exactly if a merged match names it. -/
theorem merged_region_iff {index : Nat} {region : Region}
    (here : report.regions[index]? = some region) :
    index ∈ (mergeMatches report.blocks hits).map MatchEntry.regionIndex <->
      ∃ address, address ∈ hits.flatten ∧ region.Holds address.toNat := by
  have paired := List.Forall₂.length_eq inside
  constructor
  · intro named
    rcases List.mem_map.mp named with ⟨entry, member, rfl⟩
    rcases holds_of_merged planned inside member with ⟨another, there, holds⟩
    cases here.symm.trans there
    exact ⟨entry.address,
      (mem_map_mergeMatches paired).mp (List.mem_map_of_mem member), holds⟩
  · rintro ⟨address, hit, holds⟩
    rcases List.mem_map.mp ((mem_map_mergeMatches paired).mpr hit) with ⟨entry, member, rfl⟩
    rcases holds_of_merged planned inside member with ⟨another, there, also⟩
    have low := index_le_of_le ascending apart here there holds also (Nat.le_refl _)
    have high := index_le_of_le ascending apart there here also holds (Nat.le_refl _)
    rw [Nat.le_antisymm low high]
    exact List.mem_map_of_mem member

/-- The parts of the merged matches group them by their regions. -/
theorem groups_parts :
    report.Groups hits (report.parts none (mergeMatches report.blocks hits)) := by
  have valid := valid_merged planned inside
  constructor
  · exact filterMap_address?_parts
  · rw [filterMap_address?_parts]
    exact mergeMatches_sorted
  · have rising := merged_regions_rise ascending apart planned inside
    exact ((@regions_rise _ none _ valid rising nofun).1).imp Nat.ne_of_lt
  · intro index region here
    rw [<- merged_region_iff ascending apart planned inside here]
    constructor
    · exact mem_of_region_mem
    · intro named
      rcases List.mem_map.mp named with ⟨entry, member, rfl⟩
      exact (region_mem_of_mem valid member).resolve_left nofun
  · intro index region moduleName member
    rcases of_head_mem member with ⟨there, rfl, -⟩
    refine ⟨there, fun path => ?_⟩
    unfold Target.regionModule
    cases region.isImage with
    | false => simp
    | true => simp
  · intro before address after split
    rcases exists_of_found valid split with
      ⟨entry, member, rfl, ⟨begun, -⟩ | ⟨upper, region, moduleName, lower, rfl, free⟩⟩
    · cases begun
    · rcases holds_of_merged planned inside member with ⟨another, there, holds⟩
      have head : .head entry.regionIndex region moduleName ∈
          report.parts none (mergeMatches report.blocks hits) := by
        rw [split]
        exact List.mem_append_left _ (List.mem_append_right upper List.mem_cons_self)
      cases there.symm.trans (of_head_mem head).1
      exact ⟨upper, entry.regionIndex, region, moduleName, lower, rfl, free, holds⟩

end Merged

/-- A report that has matches, and not too many, lists them. -/
theorem emits_listed {Cause : Type} [OfIoError Cause] {hits : List (List Address)}
    (valid : report.Valid (mergeMatches report.blocks hits))
    (paired : report.blocks.length = hits.length) (some : hits.flatten.length ≠ 0)
    (few : hits.flatten.length ≤ report.maxResults.toNat) :
    (report.write hits : Run Cause ReportSummary).Emits
      ⟨.listed, hits.flatten.length, (mergeMatches report.blocks hits).length⟩
      (countLine hits.flatten.length ++
        (String.join ((report.parts none (mergeMatches report.blocks hits)).map
          ReportPart.text) ++ "\n")) := by
  have text : countLine hits.flatten.length ++
        (String.join ((report.parts none (mergeMatches report.blocks hits)).map
          ReportPart.text) ++ "\n") =
      countLine hits.flatten.length ++ "\n" ++
        (report.entriesText none (mergeMatches report.blocks hits) ++ ("" ++ "\n" ++ "")) := by
    rw [join_parts_none valid (mergeMatches_ne_nil paired some)]
    simp only [String.append_assoc, String.empty_append, String.append_empty]
  rw [text]
  unfold write
  dsimp only
  rw [if_neg some, if_neg (Nat.not_lt.mpr few)]
  exact (Run.emits_writeLine _).then ((emits_listEntries valid).then
    ((Run.emits_writeLine "").then (Run.emits_pure _)))

/-- Whenever a report lists matches, it has printed the parts of the merged list. -/
theorem text_of_listed {Cause : Type} [OfIoError Cause] {hits : List (List Address)}
    {trace later : Trace} {summary : ReportSummary}
    (paired : report.blocks.length = hits.length)
    (ran : (report.write hits : Run Cause ReportSummary) trace = (.ok summary, later))
    (listed : summary.outcome = .listed) :
    later.out.text = trace.out.text ++ (countLine hits.flatten.length ++
      (String.join ((report.parts none (mergeMatches report.blocks hits)).map
        ReportPart.text) ++ "\n")) := by
  rcases (summary_of_write ran).2.2 listed with ⟨some, few, -⟩
  have valid : report.Valid (mergeMatches report.blocks hits) := by
    have written := ran
    unfold write at written
    dsimp only at written
    rw [if_neg some, if_neg (Nat.not_lt.mpr few)] at written
    rcases Run.exists_of_bind written with ⟨_, _, -, listing⟩
    rcases Run.exists_of_bind listing with ⟨_, _, printed, -⟩
    refine valid_of_listEntries ?_ printed
    nofun
  exact (Run.Emits.of_ok ran (emits_listed valid paired some few)).2

/-- A process with an image. -/
def pairProcess : StagedProcess where
  modules := [(⟨8192⟩, "/usr/bin/pair")]

/-- A report about a region of private memory and the image behind it, each of which is one
block. -/
def pairReport : MatchReport where
  target := pairProcess.target
  regions := [Region.committedPrivate ⟨4096⟩ 16 Protection.readable,
    { Region.committedPrivate ⟨8192⟩ 16 Protection.readable with kind := .image }]
  blocks := [⟨⟨4096⟩, 16, 0⟩, ⟨⟨8192⟩, 16, 1⟩]
  maxResults := 8

/-- Matches in both blocks, of which one is told twice. -/
def pairHits : List (List Address) :=
  [[⟨4100⟩, ⟨4097⟩, ⟨4100⟩], [⟨8192⟩]]

def pairLayout : BlockLayout :=
  ⟨4096, 16, by decide, by decide⟩

end MatchReport
end MemoryProbe
