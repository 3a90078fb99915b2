import MemoryProbe.Proofs.Region.Places
import MemoryProbe.Proofs.Search.Reading
import MemoryProbe.Proofs.Search.Reporting

namespace MemoryProbe

/-!
What a scan lists.  A pattern is found in a block that is read in full exactly where
it lies in the memory, so the merged list is known from the memory and the blocks; and
if no block fails, it is known from the memory and the regions alone.
-/

/-- Whenever it is read, all of a block is answered. -/
def Target.ReadsInFull (target : Target) (block : ReadBlock) : Prop :=
  forall earlier, ∃ bytes, target.read earlier block.start block.length.toNat = .ok bytes ∧
    bytes.length = block.length.toNat

namespace PoolWork

variable {work : PoolWork} {memory : Memory} {block : ReadBlock} {address : Address}

/-- In all bytes of a block, the pattern is found where it lies in the memory. -/
theorem mem_iff_of_bytes {bytes : List UInt8} {found : List Address}
    (begins : memory.Begins block.start.toNat bytes)
    (whole : bytes.length = block.length.toNat)
    (addresses : found.map Address.toNat =
      (work.pattern.occurrences bytes).map fun offset => block.start.toNat + offset) :
    address ∈ found <-> block.Spans address.toNat work.pattern.length ∧
      work.pattern.LiesAt memory address.toNat := by
  have same : address ∈ found <-> address.toNat ∈ found.map Address.toNat := by
    rw [List.mem_map]
    constructor
    · exact fun here => ⟨address, here, rfl⟩
    · rintro ⟨other, here, equal⟩
      exact Address.toNat_inj.mp equal ▸ here
  rw [same, addresses, List.mem_map]
  constructor
  · rintro ⟨offset, here, equal⟩
    rcases (Pattern.mem_occurrences_iff_liesAt begins).mp here with ⟨inside, lies⟩
    rw [<- equal]
    exact ⟨⟨Nat.le_add_right _ _, by omega⟩, lies⟩
  · rintro ⟨spans, lies⟩
    have low := spans.start_le
    have high := spans.le_stop
    have equal : block.start.toNat + (address.toNat - block.start.toNat) =
        address.toNat := by omega
    refine ⟨address.toNat - block.start.toNat,
      (Pattern.mem_occurrences_iff_liesAt begins).mpr ⟨by omega, ?_⟩, equal⟩
    rw [equal]
    exact lies

/-- The pattern is found in a block where it lies in the memory, if the block is read
in full. -/
theorem mem_hits_iff (sound : work.Sound) (shows : work.reader.target.Shows memory)
    (member : block ∈ work.blocks) :
    address ∈ ((work.handled block).hits?).getD [] <->
      work.reader.target.ReadsInFull block ∧
        block.Spans address.toNat work.pattern.length ∧
        work.pattern.LiesAt memory address.toNat := by
  have finds := finds_of_handled (sound.handled_ne_faulted member)
  generalize (work.handled block).hits? = result at finds ⊢
  cases finds with
  | hits bytes found answered whole addresses =>
      have full : work.reader.target.ReadsInFull block := by
        intro earlier
        rw [sound.timeless earlier 0]
        exact ⟨bytes, answered, whole⟩
      have begins := shows 0 block.start block.length.toNat bytes answered
      rw [Option.getD_some, mem_iff_of_bytes begins whole addresses]
      exact ⟨fun there => ⟨full, there⟩, fun both => both.2⟩
  | nothing missed =>
      rw [Option.getD_none]
      constructor
      · exact fun here => absurd here List.not_mem_nil
      · rintro ⟨full, -⟩
        rcases full 0 with ⟨bytes, answered, whole⟩
        exact absurd whole (missed bytes answered)

/-- The merged matches are where the pattern lies in blocks that are read in full. -/
theorem mem_merged_iff (sound : work.Sound) (shows : work.reader.target.Shows memory)
    (workers : Nat) :
    address ∈ (mergeMatches work.blocks (work.outcome workers).hits).map MatchEntry.address <->
      ∃ block, block ∈ work.blocks ∧ work.reader.target.ReadsInFull block ∧
        block.Spans address.toNat work.pattern.length ∧
        work.pattern.LiesAt memory address.toNat := by
  have paired : work.blocks.zip (work.outcome workers).hits =
      work.blocks.map fun block => (block, ((work.handled block).hits?).getD []) := by
    rw [List.map_prod_left_eq_zip]
    unfold outcome results
    rw [List.map_map]
    rfl
  constructor
  · intro listed
    rcases List.mem_map.mp listed with ⟨entry, among, rfl⟩
    rcases exists_of_mem_mergeMatches among with ⟨pair, zipped, found, -⟩
    rw [paired] at zipped
    rcases List.mem_map.mp zipped with ⟨block, member, rfl⟩
    exact ⟨block, member, (mem_hits_iff sound shows member).mp found⟩
  · rintro ⟨block, member, found⟩
    have zipped : (block, ((work.handled block).hits?).getD []) ∈
        work.blocks.zip (work.outcome workers).hits := by
      rw [paired]
      exact List.mem_map_of_mem member
    exact mem_mergeMatches zipped ((mem_hits_iff sound shows member).mpr found)

/-- A merged match names a region that exists. -/
theorem exists_region_of_merged (sound : work.Sound) {workers : Nat} {entry : MatchEntry}
    (among : entry ∈ mergeMatches work.blocks (work.outcome workers).hits) :
    ∃ region, work.regions[entry.regionIndex]? = some region := by
  rcases exists_of_mem_mergeMatches among with ⟨pair, zipped, -, same⟩
  rw [same]
  exact sound.valid _ (List.of_mem_zip zipped).1

end PoolWork

namespace Scanner

/-- The sizes of regions behind each other add up to a word. -/
theorem exists_totalSize {regions : List Region}
    (apart : regions.Pairwise fun region later =>
      region.base.toNat + region.size.toNat ≤ later.base.toNat)
    (fits : forall region, region ∈ regions ->
      region.base.toNat + region.size.toNat < UInt64.size) :
    ∃ total, totalSize regions = .ok total := by
  -- The sizes so far are at most the base of what comes next.
  have sums : forall sofar : Word,
      (forall region, region ∈ regions -> sofar.toNat ≤ region.base.toNat) ->
      ∃ total, regions.foldlM (fun total region => Word.sum total region.size) sofar =
        .ok total := by
    induction regions with
    | nil => exact fun sofar _ => ⟨sofar, rfl⟩
    | cons region rest ih =>
        intro sofar below
        rcases List.pairwise_cons.mp apart with ⟨behind, others⟩
        have low := below region List.mem_cons_self
        have room := fits region List.mem_cons_self
        have added : (UInt64.ofNat (sofar.toNat + region.size.toNat)).toNat =
            sofar.toNat + region.size.toNat := UInt64.toNat_ofNat_of_lt' (by omega)
        rcases ih others (fun other member => fits other (List.mem_cons_of_mem _ member))
          (UInt64.ofNat (sofar.toNat + region.size.toNat)) (fun other member => by
            have above := behind other member
            omega) with ⟨total, rest_eq⟩
        refine ⟨total, ?_⟩
        rw [List.foldlM_cons, Word.sum_eq_ok_iff.mpr added]
        exact rest_eq
  exact sums 0 fun region _ => Nat.zero_le _

/-- The survey of a scan for a pattern. -/
def survey (pattern : Pattern) : Survey where
  minimumSize := UInt64.ofNat pattern.length

/-- The regions that a scan for a pattern cuts into blocks. -/
def surveyed (scanner : Scanner) (pattern : Pattern) : List Region :=
  (survey pattern).found (visitsFrom scanner.target.query Address.zero)

/-- A scan that is refused nothing, with the blocks it plans. -/
structure Plans (scanner : Scanner) (pattern : Pattern) (blocks : List ReadBlock) : Prop where
  short : pattern.length < UInt64.size
  accepted : scanner.settings.validate = .ok ()
  threads : scanner.hardwareThreads ≠ 0
  planned : ∃ layout,
    BlockLayout.make scanner.granularity scanner.settings.blockFactor
      (UInt64.ofNat pattern.length) = .ok layout ∧
    layout.plan (scanner.surveyed pattern) = .ok blocks
  fits : forall block, block ∈ blocks -> block.length ≤ scanner.settings.memoryLimit
  buffered : ∃ arena, Arena.make (UInt64.ofNat (scanner.reader.workerCount blocks.length))
    ((longestBlock? blocks).getD 0) = .ok arena

/-- The blocks of a scan, as work for its readers. -/
def work (scanner : Scanner) (pattern : Pattern) (blocks : List ReadBlock) : PoolWork :=
  ⟨scanner.reader, pattern, scanner.surveyed pattern, blocks⟩

/-- The report of a scan. -/
def report (scanner : Scanner) (pattern : Pattern) (blocks : List ReadBlock) : MatchReport where
  target := scanner.target
  regions := scanner.surveyed pattern
  blocks := blocks
  maxResults := scanner.settings.maxResults

/-- What a scan prints before its report. -/
def heading : String :=
  "Searching committed memory...\n" ++ ("\n" ++ reportRule ++ "\n" ++ "\n")

section Scan

variable {scanner : Scanner} {process : Inspected} {memory : Memory} {pattern : Pattern}
  {blocks : List ReadBlock} {region : Region}

theorem survey_minimumSize (short : pattern.length < UInt64.size) :
    (survey pattern).minimumSize.toNat = pattern.length :=
  UInt64.toNat_ofNat_of_lt' short

theorem minimumSize_pos (short : pattern.length < UInt64.size) :
    0 < (survey pattern).minimumSize.toNat := by
  rw [survey_minimumSize short]
  exact List.length_pos_iff.mpr pattern.nonempty

theorem surveyed_eq (ordered : Ordered process.table) (looks : scanner.target = process.target)
    (short : pattern.length < UInt64.size) :
    scanner.surveyed pattern = process.table.filter fun region =>
      (survey pattern).keeps region && reaches process.table process.failingQuery region := by
  unfold surveyed
  rw [looks]
  exact found_visits (process.answers ordered) ordered rfl (minimumSize_pos short)

/-- A scan cuts the committed regions that the survey comes behind, if the pattern fits
into them. -/
theorem mem_surveyed (ordered : Ordered process.table) (looks : scanner.target = process.target)
    (short : pattern.length < UInt64.size) :
    region ∈ scanner.surveyed pattern <-> region ∈ process.table ∧
      process.offers region = true ∧ pattern.length ≤ region.size.toNat := by
  rw [surveyed_eq ordered looks short, List.mem_filter]
  refine and_congr_right fun _ => ?_
  unfold Inspected.offers Survey.keeps
  rw [Bool.and_eq_true, Bool.and_eq_true, Bool.and_eq_true, decide_eq_true_eq,
    UInt64.le_iff_toNat_le, survey_minimumSize short, and_right_comm]
  rfl

theorem Plans.sound (plans : scanner.Plans pattern blocks) (ordered : Ordered process.table)
    (holds : process.Holds memory) (looks : scanner.target = process.target) :
    (scanner.work pattern blocks).Sound := by
  rcases plans.planned with ⟨layout, -, planned⟩
  rcases holds.reads with ⟨timeless, honest, -⟩
  refine ⟨?_, ?_, ?_, ?_⟩
  · change scanner.target.Timeless
    exact looks ▸ timeless
  · change scanner.target.Honest
    exact looks ▸ honest
  · intro block member
    rcases BlockLayout.exists_region_of_plan planned member with ⟨region, there, -⟩
    exact ⟨region, there⟩
  · intro block member
    rcases BlockLayout.exists_region_of_plan planned member with ⟨region, there, -, high⟩
    have surveyed := (mem_surveyed ordered looks plans.short).mp (List.mem_of_getElem? there)
    exact Nat.lt_of_le_of_lt high (ordered.fits region surveyed.1)

/-- No block of the plan exceeds the memory limit, so it is permitted. -/
theorem Plans.permitted (plans : scanner.Plans pattern blocks) :
    scanner.permit blocks = .ok () := by
  unfold permit
  cases longest : longestBlock? blocks with
  | none => rfl
  | some greatest =>
      have below := longestBlock_le plans.fits longest
      exact if_neg (UInt64.not_lt.mpr below)

/-- The matches that a scan finds in each block. -/
def hits (scanner : Scanner) (pattern : Pattern) (blocks : List ReadBlock) :
    List (List Address) :=
  ((scanner.work pattern blocks).outcome (scanner.reader.workerCount blocks.length)).hits

/-- The merged matches of a scan. -/
def merged (scanner : Scanner) (pattern : Pattern) (blocks : List ReadBlock) :
    List MatchEntry :=
  mergeMatches blocks (scanner.hits pattern blocks)

/-- The survey of a scan comes to the regions that the scan cuts. -/
theorem emits_survey (ordered : Ordered process.table)
    (looks : scanner.target = process.target) (short : pattern.length < UInt64.size) :
    ((survey pattern).run scanner.target : Run ScanError (List Region)).Emits
      (scanner.surveyed pattern) "" := by
  refine Run.emits_of_out_eq fun trace => ?_
  rcases run_survey (looks ▸ process.answers ordered) ordered rfl (minimumSize_pos short)
    trace with ⟨warnings, ran⟩
  rw [surveyed_eq ordered looks short]
  exact ⟨_, ran, rfl⟩

theorem exists_surveyed_size (ordered : Ordered process.table)
    (looks : scanner.target = process.target) (short : pattern.length < UInt64.size) :
    ∃ total, totalSize (scanner.surveyed pattern) = .ok total := by
  rw [surveyed_eq ordered looks short]
  exact exists_totalSize (ordered.pairwise.filter _) fun region member =>
    ordered.fits region (List.mem_filter.mp member).1

/-- A scan that is refused nothing prints its heading and the report of what was found,
however its blocks are read. -/
theorem Plans.emits_scan (plans : scanner.Plans pattern blocks)
    (ordered : Ordered process.table) (holds : process.Holds memory)
    (looks : scanner.target = process.target) {reads : ReadPhase}
    (way : scanner.ReadsBlocks reads) :
    ∃ summary text, (scanner.scanReading reads pattern.bytes).Emits summary text ∧
      summary.rawMatches = (scanner.hits pattern blocks).flatten.length ∧
      (summary.outcome = .tooMany <->
        scanner.settings.maxResults.toNat < summary.rawMatches) ∧
      (summary.outcome ≠ .tooMany ->
        text = heading ++ (scanner.report pattern blocks).text summary.rawMatches
          (scanner.merged pattern blocks)) := by
  have sound := plans.sound ordered holds looks
  rcases plans.planned with ⟨layout, made, planned⟩
  rcases plans.buffered with ⟨arena, roomy⟩
  rcases exists_surveyed_size ordered looks plans.short with ⟨total, totalled⟩
  have accepted : scanner.settings.validate.mapError ScanError.settings = .ok () := by
    rw [plans.accepted]
    rfl
  have formed : Pattern.ofBytes pattern.bytes = .ok pattern := dif_neg pattern.nonempty
  let outcome := (scanner.work pattern blocks).outcome
    (scanner.reader.workerCount blocks.length)
  have reading : (reads pattern (scanner.surveyed pattern) blocks).Emits outcome "" := by
    refine Run.emits_of_out_eq fun trace => ?_
    rcases reads_eq way sound plans.threads plans.fits roomy trace with ⟨asked, sink, came⟩
    exact ⟨_, came, rfl⟩
  rcases @MatchReport.emits_write (scanner.report pattern blocks) outcome.hits
    (fun entry among => PoolWork.exists_region_of_merged sound among) with
    ⟨summary, text, written, raw, many, few⟩
  refine ⟨{
      regions := (scanner.surveyed pattern).length
      blocks := blocks.length
      workers := outcome.workers
      failedBlocks := outcome.failedBlocks
      rawMatches := summary.rawMatches
      uniqueMatches := summary.uniqueMatches
      outcome := summary.outcome }, heading ++ text, ?_, raw, many, fun listed =>
    congrArg (fun rest => heading ++ rest) (few listed)⟩
  unfold scanReading heading
  rw [String.append_assoc]
  refine (Run.emits_ofExcept accepted).after ?_
  refine (Run.emits_ofExcept formed).after ?_
  refine (Run.emits_ofHalting made).after ?_
  refine (Run.emits_writeLine _).then ((Run.emits_writeLine _).then ?_)
  refine (emits_survey ordered looks plans.short).after ?_
  refine (Run.emits_ofChecked planned).after ?_
  refine (Run.emits_ofExcept plans.permitted).after ?_
  refine (Run.emits_ofChecked totalled).after ?_
  exact reading.after written.made

/-- What lies in a planned block lies in a region that is offered. -/
theorem Plans.exists_offered (plans : scanner.Plans pattern blocks)
    (ordered : Ordered process.table) (looks : scanner.target = process.target)
    {block : ReadBlock} (member : block ∈ blocks) {place : Nat}
    (spans : block.Spans place pattern.length) (lies : pattern.LiesAt memory place) :
    ∃ region, region ∈ process.table ∧ process.offers region = true ∧
      pattern.LiesIn memory region place := by
  rcases plans.planned with ⟨layout, -, planned⟩
  rcases BlockLayout.exists_region_of_plan planned member with ⟨region, there, low, high⟩
  rcases (mem_surveyed ordered looks plans.short).mp (List.mem_of_getElem? there) with
    ⟨charted, offered, -⟩
  exact ⟨region, charted, offered, Nat.le_trans low spans.start_le,
    Nat.le_trans spans.le_stop high, lies⟩

/-- A match is listed exactly where the pattern lies in a committed region and in a block
that is read in full. -/
theorem Plans.mem_merged_iff (plans : scanner.Plans pattern blocks)
    (ordered : Ordered process.table) (holds : process.Holds memory)
    (looks : scanner.target = process.target) {address : Address} :
    address ∈ (scanner.merged pattern blocks).map MatchEntry.address <->
      ∃ region, region ∈ process.table ∧ region.isCommitted = true ∧
        pattern.LiesIn memory region address.toNat ∧
        ∃ block, block ∈ blocks ∧ block.Spans address.toNat pattern.length ∧
          scanner.target.ReadsInFull block := by
  have shows : scanner.target.Shows memory := looks ▸ holds.reads.2.2
  unfold merged hits
  refine (PoolWork.mem_merged_iff (plans.sound ordered holds looks) shows _).trans ?_
  constructor
  · rintro ⟨block, member, full, spans, lies⟩
    rcases plans.exists_offered ordered looks member spans lies with
      ⟨region, charted, offered, inside⟩
    exact ⟨region, charted, (Bool.and_eq_true_iff.mp offered).1, inside, block, member, spans,
      full⟩
  · rintro ⟨region, -, -, lies, block, member, spans, full⟩
    exact ⟨block, member, full, spans, lies.liesAt⟩

/-- If every block is read in full, the places that the regions offer are listed. -/
theorem Plans.map_merged_eq (plans : scanner.Plans pattern blocks)
    (ordered : Ordered process.table) (holds : process.Holds memory)
    (looks : scanner.target = process.target)
    (whole : forall block, block ∈ blocks -> scanner.target.ReadsInFull block) :
    (scanner.merged pattern blocks).map (fun entry => entry.address.toNat) =
      process.places memory pattern := by
  have positive : 0 < pattern.length := List.length_pos_iff.mpr pattern.nonempty
  have addresses : (scanner.merged pattern blocks).map (fun entry => entry.address.toNat) =
      ((scanner.merged pattern blocks).map MatchEntry.address).map Address.toNat := by
    rw [List.map_map]
    rfl
  rcases plans.planned with ⟨layout, made, planned⟩
  have overlaps := (BlockLayout.le_overlap_of_make made).1
  rw [UInt64.toNat_ofNat_of_lt' plans.short] at overlaps
  rw [addresses]
  refine Inspected.eq_places ordered ?_ fun place => ?_
  · rw [List.pairwise_map]
    exact mergeMatches_sorted.imp fun less => Address.lt_iff_toNat_lt.mp less
  · rw [Inspected.mem_places, List.mem_map]
    constructor
    · rintro ⟨address, listed, rfl⟩
      rcases (plans.mem_merged_iff ordered holds looks).mp listed with
        ⟨_, -, -, lies, block, member, spans, -⟩
      exact plans.exists_offered ordered looks member spans lies.liesAt
    · rintro ⟨region, charted, offered, lies⟩
      have low := lies.base_le
      have high := lies.le_stop
      have room := ordered.fits region charted
      have surveyed := (mem_surveyed ordered looks plans.short).mpr
        ⟨charted, offered, by omega⟩
      rcases BlockLayout.exists_block_of_range planned surveyed low high positive
        (Nat.le_succ_of_le overlaps) with ⟨block, member, spans⟩
      have same : (⟨UInt64.ofNat place⟩ : Address).toNat = place :=
        UInt64.toNat_ofNat_of_lt' (by omega)
      refine ⟨⟨UInt64.ofNat place⟩, (plans.mem_merged_iff ordered holds looks).mpr ?_, same⟩
      rw [same]
      exact ⟨region, charted, (Bool.and_eq_true_iff.mp offered).1, lies, block, member, spans,
        whole block member⟩

/-- A scan that is refused nothing and not cut off lists, in rising order, the addresses
where the pattern lies in a committed region and in a block that is read in full.  If all
blocks are, the list is told by the process alone, whatever the layout, the limits and
the order in which the workers take their steps. -/
theorem scan_lists_matches {process : Inspected} {memory : Memory} {scanner : Scanner}
    {pattern : Pattern} {blocks : List ReadBlock} {reads : ReadPhase}
    (ordered : Ordered process.table) (holds : process.Holds memory)
    (looks : scanner.target = process.target) (plans : scanner.Plans pattern blocks)
    (way : scanner.ReadsBlocks reads) :
    ∃ summary text, (scanner.scanReading reads pattern.bytes).Emits summary text ∧
      summary.rawMatches = (scanner.hits pattern blocks).flatten.length ∧
      (summary.outcome = .tooMany <->
        scanner.settings.maxResults.toNat < summary.rawMatches) ∧
      (summary.outcome ≠ .tooMany -> ∃ entries,
        text = heading ++ (scanner.report pattern blocks).text summary.rawMatches entries ∧
        (entries.map MatchEntry.address).Pairwise (fun address later => address < later) ∧
        (forall address, address ∈ entries.map MatchEntry.address <->
          ∃ region, region ∈ process.table ∧ region.isCommitted = true ∧
            pattern.LiesIn memory region address.toNat ∧
            ∃ block, block ∈ blocks ∧ block.Spans address.toNat pattern.length ∧
              scanner.target.ReadsInFull block) ∧
        ((forall block, block ∈ blocks -> scanner.target.ReadsInFull block) ->
          entries.map (fun entry => entry.address.toNat) =
            process.places memory pattern)) := by
  rcases plans.emits_scan ordered holds looks way with ⟨summary, text, emits, raw, many, few⟩
  refine ⟨summary, text, emits, raw, many, fun listed => ?_⟩
  exact ⟨scanner.merged pattern blocks, few listed, mergeMatches_sorted,
    fun address => plans.mem_merged_iff ordered holds looks,
    plans.map_merged_eq ordered holds looks⟩

end Scan

/-! ## A scan of two regions -/

/-- Blocks of sixteen bytes with as much overlap. -/
def narrowLayout : BlockLayout := ⟨16, 16, by decide, by decide⟩

/-- A region of two and a half such blocks. -/
def strip : Region := Region.committedPrivate ⟨4096⟩ 40 Protection.readable

/-- A region of two bytes. -/
def spot : Region := Region.committedPrivate ⟨8192⟩ 2 Protection.readable

theorem narrowLayout_split_strip :
    narrowLayout.split strip 0 = .ok [⟨⟨4096⟩, 32, 0⟩, ⟨⟨4112⟩, 24, 0⟩] := by
  have tail : narrowLayout.cutFrom ⟨4096⟩ 0 16 24 [⟨⟨4096⟩, 32, 0⟩] =
      .ok [⟨⟨4096⟩, 32, 0⟩, ⟨⟨4112⟩, 24, 0⟩] := by
    unfold BlockLayout.cutFrom
    rfl
  unfold BlockLayout.split BlockLayout.cutFrom
  exact tail

theorem narrowLayout_split_spot : narrowLayout.split spot 1 = .ok [⟨⟨8192⟩, 2, 1⟩] := by
  unfold BlockLayout.split BlockLayout.cutFrom
  rfl

/-- Three bytes alike in front of the second block and at its beginning, and two of the same in
both of the blocks, and in the other region. -/
def twinMemory : Memory := fun place =>
  if place ∈ [4110, 4111, 4112, 4116, 4117, 8192, 8193] then 7 else 0

/-- A process of the two regions with that memory. -/
def twinProcess : StagedProcess where
  regions := [strip, spot].map fun region =>
    ⟨region, twinMemory.bytesAt region.base.toNat region.size.toNat, region.size.toNat⟩

/-- A scanner of that process with blocks of sixteen bytes. -/
def twinScanner : Scanner where
  target := twinProcess.target
  settings := { Settings.standard 4 with blockFactor := 1 }
  granularity := 16
  tellsFailures := false
  hardwareThreads := 4

/-- Two of those bytes. -/
def twinPattern : Pattern :=
  ⟨[7, 7], List.cons_ne_nil 7 [7]⟩

/-- The blocks of the scan. -/
def twinBlocks : List ReadBlock :=
  [⟨⟨4096⟩, 32, 0⟩, ⟨⟨4112⟩, 24, 0⟩, ⟨⟨8192⟩, 2, 1⟩]

theorem narrowLayout_plan : narrowLayout.plan [strip, spot] = .ok twinBlocks := by
  unfold BlockLayout.plan
  simp only [List.zipIdx_cons, List.zipIdx_nil, List.mapM_cons, List.mapM_nil]
  rw [narrowLayout_split_strip, narrowLayout_split_spot]
  rfl

theorem twinProcess_ordered : Ordered (Inspected.staged twinProcess).table :=
  Ordered.of_pairwise (by decide) (by decide)

theorem twinProcess_holds : (Inspected.staged twinProcess).Holds twinMemory := by
  intro staged member
  rcases List.mem_map.mp member with ⟨region, -, rfl⟩
  exact twinMemory.begins_bytesAt _ _

theorem twinScanner_surveyed : twinScanner.surveyed twinPattern = [strip, spot] :=
  @surveyed_eq twinScanner _ twinPattern twinProcess_ordered rfl (by decide)

theorem twinScanner_plans : twinScanner.Plans twinPattern twinBlocks := by
  refine ⟨by decide, rfl, by decide, ⟨narrowLayout, rfl, ?_⟩, by decide, ⟨_, rfl⟩⟩
  rw [twinScanner_surveyed]
  exact narrowLayout_plan

theorem twinScanner_hits : twinScanner.hits twinPattern twinBlocks =
    [[⟨4110⟩, ⟨4111⟩, ⟨4116⟩], [⟨4116⟩], [⟨8192⟩]] := by
  unfold hits work
  rw [twinScanner_surveyed]
  decide +kernel

/-- Of the five matches that the blocks of the two regions hold, two are one and the same in two
blocks that overlap. -/
theorem scan_lists_matches_of_twins :
    Ordered (Inspected.staged twinProcess).table ∧
    (Inspected.staged twinProcess).Holds twinMemory ∧
    twinScanner.Plans twinPattern twinBlocks ∧
    ∃ summary text, (twinScanner.scan twinPattern.bytes).Emits summary text ∧
      summary.rawMatches = 5 ∧
      ∃ entries, entries.map (fun entry => entry.address.toNat) = [4110, 4111, 4116, 8192] ∧
        text = heading ++ (twinScanner.report twinPattern twinBlocks).text 5 entries := by
  refine ⟨twinProcess_ordered, twinProcess_holds, twinScanner_plans, ?_⟩
  rcases scan_lists_matches twinProcess_ordered twinProcess_holds rfl twinScanner_plans
    (Or.inl rfl) with ⟨summary, text, emits, raw, many, few⟩
  have five : summary.rawMatches = 5 := by
    rw [raw, twinScanner_hits]
    rfl
  have listed : summary.outcome ≠ .tooMany := by
    intro wrong
    have more := many.mp wrong
    rw [five] at more
    exact absurd more (by decide)
  rcases few listed with ⟨entries, written, -, -, whole⟩
  refine ⟨summary, text, emits, five, entries, ?_, five ▸ written⟩
  have full : forall block, block ∈ twinBlocks -> twinScanner.target.ReadsInFull block := by
    intro block member earlier
    simp only [twinBlocks, List.mem_cons, List.not_mem_nil, or_false] at member
    rcases member with rfl | rfl | rfl <;> exact ⟨_, rfl, by decide +kernel⟩
  rw [whole full]
  decide +kernel

/-- A process of one committed byte, with a query that may fail. -/
def byteProcess (failing : Option Address) : StagedProcess where
  regions := [⟨Region.committedPrivate ⟨4096⟩ 1 Protection.readable, [7], 1⟩]
  failingQuery := failing

/-- A scanner of that process, for a machine of four hardware threads. -/
def byteScanner (failing : Option Address) : Scanner :=
  ofSettings (byteProcess failing).target (Settings.standard 4) 4

theorem byte_ne_nil : ([7] : List UInt8) ≠ [] :=
  List.cons_ne_nil 7 []

/-- The pattern of that byte. -/
def bytePattern : Pattern :=
  ⟨[7], byte_ne_nil⟩

theorem byteProcess_ordered (failing : Option Address) :
    Ordered (Inspected.staged (byteProcess failing)).table := by
  refine ⟨fun region member => ?_, fun index region later here next => ?_⟩
  · rw [List.mem_singleton.mp member]
    decide
  · cases next

theorem byteProcess_holds (failing : Option Address) :
    (Inspected.staged (byteProcess failing)).Holds fun _ => 7 := by
  intro staged member index byte found
  rw [List.mem_singleton.mp member] at found
  exact (List.mem_singleton.mp (List.mem_of_getElem? found)).symm

/-- Where the query of a region fails, the survey ends.  No block is planned, so every
planned block is read in full, and yet the byte behind the query is not listed. -/
theorem scan_misses_behind_failed_query :
    Ordered (Inspected.staged (byteProcess (some ⟨4096⟩))).table ∧
    (Inspected.staged (byteProcess (some ⟨4096⟩))).Holds (fun _ => 7) ∧
    (byteScanner (some ⟨4096⟩)).Plans bytePattern [] ∧
    (∃ region, region ∈ (Inspected.staged (byteProcess (some ⟨4096⟩))).table ∧
      region.isCommitted = true ∧ bytePattern.LiesIn (fun _ => 7) region 4096) ∧
    ∃ summary, ((byteScanner (some ⟨4096⟩)).scan bytePattern.bytes).Emits summary
        (heading ++ "*** No matches found. ***\n") ∧ summary.outcome ≠ .tooMany := by
  have ordered := byteProcess_ordered (some ⟨4096⟩)
  have holds := byteProcess_holds (some ⟨4096⟩)
  have surveyed : (byteScanner (some ⟨4096⟩)).surveyed bytePattern = [] :=
    @surveyed_eq (byteScanner (some ⟨4096⟩)) _ bytePattern ordered rfl (by decide)
  have plans : (byteScanner (some ⟨4096⟩)).Plans bytePattern [] := by
    refine ⟨by decide, rfl, by decide, ⟨_, rfl, ?_⟩, fun block member => ?_, ⟨_, rfl⟩⟩
    · rw [surveyed]
      rfl
    · exact absurd member List.not_mem_nil
  refine ⟨ordered, holds, plans, ⟨_, List.mem_singleton_self _, rfl, by decide, by decide, ?_⟩, ?_⟩
  · intro index byte found
    exact (List.mem_singleton.mp (List.mem_of_getElem? found)).symm
  · rcases plans.emits_scan ordered holds rfl (Or.inl rfl) with
      ⟨summary, text, emits, raw, many, few⟩
    have none : summary.rawMatches = 0 := raw
    have listed : summary.outcome ≠ .tooMany := by
      intro wrong
      have more := many.mp wrong
      rw [none] at more
      exact absurd more (Nat.not_lt_zero _)
    have said := few listed
    rw [none] at said
    exact ⟨summary, said ▸ emits, listed⟩

end Scanner
end MemoryProbe
