import MemoryProbe.Proofs.Pool.Findings
import MemoryProbe.Proofs.Search.Listing
import MemoryProbe.Proofs.Search.Overlap

namespace MemoryProbe

/-!
How many matches a scan counts.  An occurrence is found once in every block that holds
it, so the raw matches are at least as many as the distinct ones and at most twice as
many, even where the process changes between the reads.
-/

/-- Where no entry comes more than twice, there are at most twice as many as distinct
ones. -/
theorem length_le_two_mul_dedup {α : Type} [DecidableEq α] {entries : List α}
    (few : forall entry, entry ∈ entries -> entries.count entry ≤ 2) :
    entries.length ≤ 2 * entries.dedup.length := by
  have total := List.sum_map_count_dedup_eq_length entries
  have bounded : (entries.dedup.map fun entry => entries.count entry).sum ≤
      entries.dedup.length * 2 :=
    sum_le_length_mul fun entry member => few entry (List.mem_dedup.mp member)
  omega

/-- The merged matches are as many as the distinct ones. -/
theorem mergeMatches_length {blocks : List ReadBlock} {hits : List (List Address)}
    (paired : blocks.length = hits.length) :
    (mergeMatches blocks hits).length = hits.flatten.dedup.length := by
  have once : ((mergeMatches blocks hits).map MatchEntry.address).Nodup :=
    mergeMatches_sorted.imp fun less same => by
      rw [same, Address.lt_iff_toNat_lt] at less
      omega
  have same := (List.perm_ext_iff_of_nodup once hits.flatten.nodup_dedup).mpr fun address =>
    (mem_map_mergeMatches paired).trans List.mem_dedup.symm
  rw [<- same.length_eq, List.length_map]

namespace PoolWork

variable {work : PoolWork} {block : ReadBlock} {found : List Address} {address : Address}
  {memory : Memory}

/-- What may be found in a block is found in all of its bytes, or it is nothing and the
block is not always read in full. -/
theorem bytes_of_mayFind (finds : work.MayFind block found) :
    (∃ earlier bytes,
      work.reader.target.read earlier block.start block.length.toNat = .ok bytes ∧
      bytes.length = block.length.toNat ∧
      found.map Address.toNat =
        (work.pattern.occurrences bytes).map fun offset => block.start.toNat + offset) ∨
    found = [] ∧ ¬ work.reader.target.ReadsInFull block := by
  rcases finds with ⟨handling, ⟨earlier, comes⟩, whole, rfl⟩
  cases answer : work.reader.target.read earlier block.start block.length.toNat with
  | error cause =>
      rw [answer] at comes
      subst comes
      refine Or.inr ⟨rfl, fun full => ?_⟩
      rcases full earlier with ⟨bytes, answered, -⟩
      rw [answer] at answered
      contradiction
  | ok bytes =>
      rw [answer, handledAfter] at comes
      by_cases all : bytes.length = block.length.toNat
      · rw [if_pos all] at comes
        cases handling with
        | matched hits =>
            exact Or.inl ⟨earlier, bytes, answer, all, map_toNat_of_matchBytes all comes⟩
        | skipped => exact absurd comes matchBytes_ne_skipped
        | faulted => exact absurd rfl whole
      · rw [if_neg all] at comes
        subst comes
        refine Or.inr ⟨rfl, fun full => ?_⟩
        rcases full earlier with ⟨other, answered, again⟩
        rw [answer, Except.ok.injEq] at answered
        exact all (answered ▸ again)

/-- An address is found in a block at most once, and only if the block holds the pattern
there. -/
theorem count_le_of_mayFind (finds : work.MayFind block found) (address : Address) :
    found.count address ≤ if block.Spans address.toNat work.pattern.length then 1 else 0 := by
  rcases bytes_of_mayFind finds with ⟨earlier, bytes, -, whole, addresses⟩ | ⟨rfl, -⟩
  · have once : found.Nodup := by
      refine List.Nodup.of_map Address.toNat ?_
      rw [addresses]
      refine List.pairwise_map.mpr (Pattern.occurrences_sorted.imp fun less same => ?_)
      omega
    by_cases member : address ∈ found
    · have there := List.mem_map_of_mem (f := Address.toNat) member
      rw [addresses] at there
      rcases List.mem_map.mp there with ⟨offset, occurs, same⟩
      have inside := Pattern.add_length_le_of_mem occurs
      rw [if_pos ⟨by omega, by omega⟩]
      exact List.nodup_iff_count_le_one.mp once address
    · rw [List.count_eq_zero_of_not_mem member]
      exact Nat.zero_le _
  · exact Nat.zero_le _

/-- No address is found more often than there are blocks that hold the pattern there. -/
theorem count_flatten_le {blocks : List ReadBlock} {hits : List (List Address)}
    (all : List.Forall₂ work.MayFind blocks hits) (address : Address) :
    hits.flatten.count address ≤ holders blocks address.toNat work.pattern.length := by
  induction all with
  | nil => exact Nat.zero_le _
  | cons finds rest ih =>
      have one := count_le_of_mayFind finds address
      rw [List.flatten_cons, List.count_append, BlockLayout.holders_cons]
      omega

/-- Where all blocks are read in full, found is what lies in the blocks. -/
theorem mem_flatten_iff {blocks : List ReadBlock} {hits : List (List Address)}
    (all : List.Forall₂ work.MayFind blocks hits)
    (shows : work.reader.target.Shows memory)
    (full : forall block, block ∈ blocks -> work.reader.target.ReadsInFull block) :
    address ∈ hits.flatten <->
      ∃ block, block ∈ blocks ∧ block.Spans address.toNat work.pattern.length ∧
        work.pattern.LiesAt memory address.toNat := by
  induction all with
  | nil => simp
  | @cons block found blocks hits finds rest ih =>
      have others := ih fun other member => full other (List.mem_cons_of_mem _ member)
      have here : address ∈ found <-> block.Spans address.toNat work.pattern.length ∧
          work.pattern.LiesAt memory address.toNat := by
        rcases bytes_of_mayFind finds with ⟨earlier, bytes, answered, whole, addresses⟩ | none
        · exact mem_iff_of_bytes (shows earlier _ _ bytes answered) whole addresses
        · exact absurd (full block List.mem_cons_self) none.2
      rw [List.flatten_cons, List.mem_append, here, others]
      simp only [List.mem_cons, exists_eq_or_imp]

end PoolWork

/-! ## What the readers come to -/

namespace PoolWork

variable {work : PoolWork}

/-- A reader that handles blocks one after the other, without a fault and without a
refusal, finds in each what may be found there. -/
theorem mayFind_of_handleBlocks {workers : Nat} {tally last : ReadTally}
    {budget later : Budget} {blocks : List ReadBlock} {trace ended : Trace}
    (manned : workers ≠ 0) (calm : last.faults = 0) (admitted : last.refusal = none)
    (handled : work.reader.handleBlocks work.pattern work.regions workers tally budget
      blocks trace = ((.ok last, later), ended)) :
    tally.faults = 0 ∧ ∃ found, List.Forall₂ work.MayFind blocks found ∧
      last.hits = found.reverse ++ tally.hits := by
  induction blocks generalizing tally budget trace with
  | nil =>
      cases handled
      exact ⟨calm, [], .nil, rfl⟩
  | cons block rest ih =>
      have faulty : forall {budget : Budget} {trace : Trace},
          work.reader.handleBlocks work.pattern work.regions workers tally.addFault budget
            rest trace ≠ ((.ok last, later), ended) := by
        intro budget trace wrong
        exact absurd (ih wrong).1 (Nat.succ_ne_zero _)
      unfold Reader.handleBlocks at handled
      by_cases done : workers ≤ tally.faults
      · rw [if_pos done] at handled
        cases handled
        omega
      · rw [if_neg done] at handled
        cases asked : budget.acquire block.length with
        | error stop =>
            rw [asked] at handled
            cases stop with
            | failure cause =>
                cases handled
                contradiction
            | fault kind => exact absurd handled faulty
        | ok admission =>
            rw [asked] at handled
            cases admission with
            | wait => cases handled
            | granted held =>
                dsimp only at handled
                rcases came : (work.reader.handleBlock work.pattern work.regions block :
                  Run ScanError (Option (List Address))) trace with ⟨stop | result, middle⟩
                · rw [came] at handled
                  exact absurd handled faulty
                · rw [came] at handled
                  rcases ih handled with ⟨whole, found, all, listed⟩
                  have finds := mayFind_of_handleBlock came
                  have grown : (tally.add result).faults = tally.faults ∧
                      (tally.add result).hits = result.getD [] :: tally.hits := by
                    cases result <;> exact ⟨rfl, rfl⟩
                  refine ⟨grown.1 ▸ whole, result.getD [] :: found, .cons finds all, ?_⟩
                  rw [listed, grown.2, List.reverse_cons, List.append_assoc]
                  rfl

end PoolWork

namespace Scanner

variable {scanner : Scanner} {pattern : Pattern} {regions : List Region}
  {blocks : List ReadBlock} {outcome : ReadOutcome} {trace later : Trace}

/-- A reader that answers with an outcome has found in each block what may be found
there. -/
theorem mayFind_of_readBlocks (threads : scanner.hardwareThreads ≠ 0)
    (answered : scanner.readBlocks pattern regions blocks trace = (.ok outcome, later)) :
    List.Forall₂ (PoolWork.MayFind ⟨scanner.reader, pattern, regions, blocks⟩) blocks
      outcome.hits := by
  unfold readBlocks Reader.run at answered
  by_cases unmanned : scanner.reader.workerCount blocks.length = 0
  · rw [if_pos unmanned] at answered
    cases answered
    rw [blocks_eq_nil_of_unmanned threads unmanned]
    exact .nil
  · rw [if_neg unmanned] at answered
    cases made : Arena.make (UInt64.ofNat (scanner.reader.workerCount blocks.length))
        ((longestBlock? blocks).getD 0) with
    | error cause =>
        rw [made] at answered
        cases answered
    | ok arena =>
        rw [made] at answered
        rcases handled : scanner.reader.handleBlocks pattern regions
            (scanner.reader.workerCount blocks.length) {} scanner.budget blocks trace with
          ⟨⟨kind | tally, budget⟩, ended⟩
        · simp only [bind, StateT.bind, handled] at answered
          cases answered
        · simp only [bind, StateT.bind, handled, pure, StateT.pure] at answered
          have came : tally.outcome (scanner.reader.workerCount blocks.length) = .ok outcome :=
            congrArg Prod.fst answered
          unfold ReadTally.outcome at came
          cases calm : tally.faults with
          | zero =>
              rw [calm] at came
              cases admitted : tally.refusal with
              | some cause =>
                  rw [admitted] at came
                  contradiction
              | none =>
                  rw [admitted] at came
                  cases came
                  rcases @PoolWork.mayFind_of_handleBlocks
                    ⟨scanner.reader, pattern, regions, blocks⟩ _ _ _ _ _ _ _ _ unmanned calm
                    admitted handled with ⟨-, found, all, listed⟩
                  rw [listed, List.append_nil, List.reverse_reverse]
                  exact all
          | succ faults =>
              rw [calm] at came
              cases faults <;> contradiction

/-- A pool that answers with an outcome has done so too. -/
theorem mayFind_of_poolRun {work : PoolWork} {result : Except (Halt ScanError) ReadOutcome × Trace}
    (threads : scanner.hardwareThreads ≠ 0) (same : work.reader = scanner.reader)
    (ran : scanner.PoolRun work trace result) (answered : result.1 = .ok outcome) :
    List.Forall₂ work.MayFind work.blocks outcome.hits := by
  cases ran with
  | idle unmanned =>
      rw [same] at unmanned
      cases answered
      rw [blocks_eq_nil_of_unmanned threads unmanned]
      exact .nil
  | cramped cause manned refused => contradiction
  | ends first last manned started reached done =>
      rw [same] at manned started
      exact Pool.mayFind_of_answer (ofNat_workerCount_ne_zero manned) started reached done answered

/-- Whichever way the blocks are read, each has matches that may be found there. -/
theorem mayFind_of_reads {reads : ReadPhase} (way : scanner.ReadsBlocks reads)
    (threads : scanner.hardwareThreads ≠ 0)
    (answered : reads pattern regions blocks trace = (.ok outcome, later)) :
    List.Forall₂ (PoolWork.MayFind ⟨scanner.reader, pattern, regions, blocks⟩) blocks
      outcome.hits := by
  rcases way with rfl | pooled
  · exact mayFind_of_readBlocks threads answered
  · exact mayFind_of_poolRun threads rfl (pooled pattern regions blocks trace)
      (congrArg Prod.fst answered)

end Scanner

/-! ## What a scan says -/

/-- A survey that comes to an end has found what its visits show. -/
theorem Survey.found_of_run {Cause : Type} {survey : Survey} {target : Target}
    {regions : List Region} {trace later : Trace}
    (ran : (survey.run target : Run Cause (List Region)) trace = (.ok regions, later)) :
    regions = survey.found (visitsFrom target.query Address.zero) := by
  unfold run at ran
  dsimp only at ran
  split at ran
  · cases ran
  · cases ran
    rfl

namespace Scanner

variable {scanner : Scanner} {pattern : Pattern} {reads : ReadPhase}

/-- A scan that comes to an end has made a layout, planned the surveyed regions, and
reported what the readers found. -/
theorem exists_of_scanReading {summary : ScanSummary} {trace later : Trace}
    (ran : scanner.scanReading reads pattern.bytes trace = (.ok summary, later)) :
    ∃ layout blocks outcome begun ended,
      BlockLayout.make scanner.granularity scanner.settings.blockFactor
        (UInt64.ofNat pattern.length) = .ok layout ∧
      layout.plan (scanner.surveyed pattern) = .ok blocks ∧
      reads pattern (scanner.surveyed pattern) blocks begun = (.ok outcome, ended) ∧
      summary.rawMatches = outcome.hits.flatten.length ∧
      (summary.outcome = .tooMany ->
        scanner.settings.maxResults.toNat < outcome.hits.flatten.length) ∧
      (summary.outcome = .listed ->
        outcome.hits.flatten.length ≤ scanner.settings.maxResults.toNat ∧
          summary.uniqueMatches = (mergeMatches blocks outcome.hits).length) := by
  have formed : Pattern.ofBytes pattern.bytes = .ok pattern := dif_neg pattern.nonempty
  unfold scanReading at ran
  rcases Run.exists_of_bind ran with ⟨_, _, -, ran⟩
  rw [formed] at ran
  rcases Run.exists_of_bind ran with ⟨same, _, taken, ran⟩
  cases taken
  rcases Run.exists_of_bind ran with ⟨layout, _, made, ran⟩
  have made := congrArg Prod.fst made
  rcases Run.exists_of_bind ran with ⟨_, _, -, ran⟩
  rcases Run.exists_of_bind ran with ⟨_, _, -, ran⟩
  rcases Run.exists_of_bind ran with ⟨regions, _, surveyed, ran⟩
  have regions_eq := Survey.found_of_run surveyed
  subst regions_eq
  rcases Run.exists_of_bind ran with ⟨blocks, _, planned, ran⟩
  rcases Run.exists_of_bind ran with ⟨_, _, -, ran⟩
  rcases Run.exists_of_bind ran with ⟨_, _, -, ran⟩
  rcases Run.exists_of_bind ran with ⟨outcome, ended, answered, ran⟩
  rcases Run.exists_of_bind ran with ⟨report, _, written, ran⟩
  cases ran
  rcases MatchReport.summary_of_write written with ⟨raw, many, listed⟩
  exact ⟨layout, blocks, outcome, _, ended, made, Run.eq_ok_of_ofChecked planned, answered,
    raw, many, fun shown => (listed shown).2⟩

/-- A pattern lies in a planned block exactly if it lies in a surveyed region. -/
theorem exists_block_iff_exists_region {layout : BlockLayout} {regions : List Region}
    {blocks : List ReadBlock} {memory : Memory} {place : Nat}
    (overlaps : pattern.length ≤ layout.overlap.toNat)
    (planned : layout.plan regions = .ok blocks) :
    (∃ block, block ∈ blocks ∧ block.Spans place pattern.length ∧
        pattern.LiesAt memory place) <->
      ∃ region, region ∈ regions ∧ pattern.LiesIn memory region place := by
  constructor
  · rintro ⟨block, member, spans, lies⟩
    rcases BlockLayout.exists_region_of_plan planned member with ⟨region, there, low, high⟩
    exact ⟨region, List.mem_of_getElem? there, Nat.le_trans low spans.start_le,
      Nat.le_trans spans.le_stop high, lies⟩
  · rintro ⟨region, member, lies⟩
    have positive : 0 < pattern.length := List.length_pos_iff.mpr pattern.nonempty
    rcases BlockLayout.exists_block_of_range planned member lies.base_le lies.le_stop positive
      (Nat.le_succ_of_le overlaps) with ⟨block, here, spans⟩
    exact ⟨block, here, spans, lies.liesAt⟩

/-- A range of the length that a layout was made for lies whole in one planned block or
in two, whatever the overlap, if the blocks have sixteen bytes at least.  So a scan
counts at least as many matches as there are distinct ones, and at most twice as many:
it gives up only where twice the distinct ones exceed the limit, and what it lists
respects the limit.  If all blocks are read in full, the distinct matches are the
occurrences in the surveyed regions. -/
theorem scan_counts_twice_at_most :
    (forall (granularity factor patternLength : Word) (layout : BlockLayout)
        (regions : List Region) (blocks : List ReadBlock),
      BlockLayout.make granularity factor patternLength = .ok layout ->
      16 ≤ layout.blockSize.toNat -> regions.Pairwise Region.Apart ->
      layout.plan regions = .ok blocks ->
      forall (region : Region) (place : Nat), region ∈ regions ->
        region.base.toNat ≤ place ->
        place + patternLength.toNat ≤ region.base.toNat + region.size.toNat ->
        1 ≤ holders blocks place patternLength.toNat ∧
          holders blocks place patternLength.toNat ≤ 2) ∧
    forall (scanner : Scanner) (pattern : Pattern) (reads : ReadPhase)
        (summary : ScanSummary) (trace later : Trace),
      scanner.hardwareThreads ≠ 0 -> pattern.length < UInt64.size ->
      (forall layout,
        BlockLayout.make scanner.granularity scanner.settings.blockFactor
          (UInt64.ofNat pattern.length) = .ok layout -> 16 ≤ layout.blockSize.toNat) ->
      (scanner.surveyed pattern).Pairwise Region.Apart ->
      scanner.ReadsBlocks reads ->
      scanner.scanReading reads pattern.bytes trace = (.ok summary, later) ->
      ∃ blocks outcome begun ended,
        (∃ layout, BlockLayout.make scanner.granularity scanner.settings.blockFactor
            (UInt64.ofNat pattern.length) = .ok layout ∧
          layout.plan (scanner.surveyed pattern) = .ok blocks) ∧
        reads pattern (scanner.surveyed pattern) blocks begun = (.ok outcome, ended) ∧
        summary.rawMatches = outcome.hits.flatten.length ∧
        outcome.hits.flatten.dedup.length ≤ summary.rawMatches ∧
        summary.rawMatches ≤ 2 * outcome.hits.flatten.dedup.length ∧
        (summary.outcome = .tooMany ->
          scanner.settings.maxResults.toNat < 2 * outcome.hits.flatten.dedup.length) ∧
        (summary.outcome = .listed ->
          outcome.hits.flatten.dedup.length ≤ scanner.settings.maxResults.toNat ∧
            summary.uniqueMatches = outcome.hits.flatten.dedup.length) ∧
        forall memory : Memory, scanner.target.Shows memory ->
          (forall block, block ∈ blocks -> scanner.target.ReadsInFull block) ->
          forall address, address ∈ outcome.hits.flatten <->
            ∃ region, region ∈ scanner.surveyed pattern ∧
              pattern.LiesIn memory region address.toNat := by
  refine ⟨?_, ?_⟩
  · intro granularity factor patternLength layout regions blocks made wide apart planned
      region place member low high
    have overlaps := BlockLayout.le_overlap_of_make made
    have positive := (BlockLayout.overlap_of_make made).1
    rcases BlockLayout.exists_block_of_range planned member low high positive
      (Nat.le_succ_of_le overlaps.1) with ⟨block, here, spans⟩
    exact ⟨List.countP_pos_iff.mpr ⟨block, here, decide_eq_true spans⟩,
      BlockLayout.holders_plan_le place wide overlaps.2 positive apart planned⟩
  · intro scanner pattern reads summary trace later threads short wide apart way ran
    rcases exists_of_scanReading ran with
      ⟨layout, blocks, outcome, begun, ended, made, planned, answered, raw, many, listed⟩
    have all := mayFind_of_reads way threads answered
    have overlaps := BlockLayout.le_overlap_of_make made
    rw [UInt64.toNat_ofNat_of_lt' short] at overlaps
    have positive : 0 < pattern.length := List.length_pos_iff.mpr pattern.nonempty
    have twice := length_le_two_mul_dedup fun address _ =>
      Nat.le_trans (PoolWork.count_flatten_le all address)
        (BlockLayout.holders_plan_le address.toNat (wide layout made) overlaps.2 positive apart
          planned)
    have fewer := (List.dedup_sublist outcome.hits.flatten).length_le
    refine ⟨blocks, outcome, begun, ended, ⟨layout, made, planned⟩, answered, raw, raw ▸ fewer,
      raw ▸ twice, fun tooMany => ?_, fun shown => ?_, ?_⟩
    · exact Nat.lt_of_lt_of_le (many tooMany) twice
    · rcases listed shown with ⟨few, unique⟩
      exact ⟨Nat.le_trans fewer few, unique.trans (mergeMatches_length all.length_eq)⟩
    · intro memory shows full address
      exact (PoolWork.mem_flatten_iff all shows full).trans
        (exists_block_iff_exists_region overlaps.1 planned)

/-- Two bytes in both of the blocks of the strip are held twice, and a scan of the two regions
counts five matches, of which four are distinct. -/
theorem scan_counts_twice_at_most_of_twins :
    1 ≤ holders twinBlocks 4116 2 ∧ holders twinBlocks 4116 2 = 2 ∧
    ∃ summary later outcome begun ended,
      twinScanner.scan twinPattern.bytes {} = (.ok summary, later) ∧
      twinScanner.readBlocks twinPattern [strip, spot] twinBlocks begun = (.ok outcome, ended) ∧
      summary.rawMatches = 5 ∧ outcome.hits.flatten.dedup.length = 4 := by
  have apart : [strip, spot].Pairwise Region.Apart :=
    Region.Apart.of_pairwise (by decide)
  have held := scan_counts_twice_at_most.1 16 1 2 narrowLayout [strip, spot] _ rfl (by decide)
    apart narrowLayout_plan strip 4116 List.mem_cons_self (by decide) (by decide)
  refine ⟨held.1, rfl, ?_⟩
  have wide : forall layout, BlockLayout.make twinScanner.granularity
      twinScanner.settings.blockFactor (UInt64.ofNat twinPattern.length) = .ok layout ->
      16 ≤ layout.blockSize.toNat := by
    intro layout made
    cases made
    decide
  rcases twinScanner_plans.emits_scan twinProcess_ordered twinProcess_holds rfl (Or.inl rfl) with
    ⟨summary, text, emits, -, -, -⟩
  rcases emits {} with ⟨later, ran, -, -⟩ | ⟨refuses, -⟩
  · rcases scan_counts_twice_at_most.2 twinScanner twinPattern _ summary {} later
      (by decide) (by decide) wide (twinScanner_surveyed ▸ apart) (Or.inl rfl) ran with
      ⟨blocks, outcome, begun, ended, ⟨layout, made, planned⟩, answered, raw, -, -, -⟩
    rw [twinScanner_surveyed] at planned
    cases made
    cases planned.symm.trans narrowLayout_plan
    rcases reads_eq (Or.inl rfl) (twinScanner_plans.sound twinProcess_ordered twinProcess_holds rfl)
      twinScanner_plans.threads twinScanner_plans.fits rfl begun with ⟨asked, sink, came⟩
    have hits : outcome.hits = twinScanner.hits twinPattern twinBlocks := by
      cases answered.symm.trans came
      rfl
    rw [twinScanner_surveyed] at answered
    refine ⟨summary, later, outcome, begun, ended, ran, answered, ?_, ?_⟩
    · rw [raw, hits, twinScanner_hits]
      rfl
    · rw [hits, twinScanner_hits]
      decide
  · exact absurd (fun _ _ _ => rfl) refuses

end Scanner

end MemoryProbe
