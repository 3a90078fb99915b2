import MemoryProbe.Proofs.Pool.Telling
import MemoryProbe.Proofs.Search.Counting
import MemoryProbe.Proofs.Search.Reciting

namespace MemoryProbe

/-!
Diagnostics of a whole scan.  Only the reading of the blocks tells, and telling is never
listened to: a scan comes to the same report and the same numbers whether its diagnostics are
wanted, and whether they arrive.  Where they arrive, they are the complaints about the blocks
that were not read in full.
-/

/-- Nothing was read and nothing told since a trace. -/
structure Trace.Untold (later begun : Trace) : Prop where
  diagnostics : later.diagnostics = begun.diagnostics
  reads : later.reads = begun.reads

/-! ## Parts that do not tell -/

namespace Run

variable {Cause Answer Later : Type} {part : Run Cause Answer}

/-- An answer that a run uses is no failure. -/
theorem eq_ok_of_ofExcept {result : Except Cause Answer} {answer : Answer} {trace later : Trace}
    (used : ofExcept result trace = (.ok answer, later)) : result = .ok answer := by
  cases result with
  | error cause => cases used
  | ok same =>
      cases used
      rfl

/-- A part that takes no notice stops before anything was told, or leaves it to the rest. -/
theorem Unaware.bind_cases {rest : Answer -> Run Cause Later} {begun trace : Trace}
    {good : Except (Halt Cause) Later × Trace -> Prop} (unaware : part.Unaware)
    (untold : trace.Untold begun)
    (stops : forall stop later, later.Untold begun -> good (.error stop, later))
    (goesOn : forall answer middle, part trace = (.ok answer, middle) -> middle.Untold begun ->
      good (rest answer middle)) : good ((part >>= rest) trace) := by
  have left := unaware.leaves trace
  rcases ran : part trace with ⟨stop | answer, middle⟩ <;> rw [ran] at left
  · rw [bind_of_error ran]
    exact stops stop middle ⟨left.1.trans untold.diagnostics, left.2.trans untold.reads⟩
  · rw [bind_of_ok ran]
    exact goesOn answer middle ran ⟨left.1.trans untold.diagnostics, left.2.trans untold.reads⟩

end Run

theorem Survey.unaware_run {Cause : Type} (survey : Survey) (target : Target) :
    (survey.run target : Run Cause (List Region)).Unaware := by
  intro sink count trace
  unfold Survey.run
  dsimp only
  split <;> rfl

/-- What is told stays the same where nothing is told before and after it. -/
theorem PoolWork.Tells.of_untold {work : PoolWork} {begun first last later : Trace}
    {asked : List Nat} {told : List String} (tells : work.Tells first asked told last)
    (before : first.Untold begun) (behind : later.Untold last) :
    work.Tells begun asked told later where
  reads_eq := by rw [behind.reads, tells.reads_eq, before.reads]
  text_eq := by rw [behind.diagnostics, tells.text_eq, before.diagnostics]
  each := before.reads ▸ tells.each
  once := tells.once
  planned := tells.planned

/-- Two parts that come to what a third one comes to, whatever the diagnostics, come to the same
from diagnostics that differ. -/
theorem same_of_mirrors {Result : Type} {part other silent : Trace -> Result × Trace}
    (first : forall sink, Mirrors (fun trace => { trace with diagnostics := sink }) part silent)
    (second : forall sink, Mirrors (fun trace => { trace with diagnostics := sink }) other silent)
    (trace : Trace) (sink : Sink) :
    (other { trace with diagnostics := sink }).1 = (part trace).1 ∧
      { (other { trace with diagnostics := sink }).2 with
        diagnostics := (part trace).2.diagnostics } = (part trace).2 := by
  have plain := first (part trace).2.diagnostics trace
  have changed := second (part trace).2.diagnostics { trace with diagnostics := sink }
  have both := changed.symm.trans plain
  exact Prod.mk.inj both

namespace Scanner

variable {scanner : Scanner} {order : ReadOrder} {bytes : List UInt8} {trace : Trace}

/-! ## Telling or not -/

/-- A scan that tells comes to what a silent one comes to, whatever becomes of its diagnostics. -/
theorem mirrors_scanReading (honest : scanner.target.Honest) (order : ReadOrder)
    (bytes : List UInt8) (sink : Sink) :
    Mirrors (fun trace => { trace with diagnostics := sink })
      (scanner.scanReading (scanner.readsIn order) bytes)
      ((scanner.telling false).scanReading ((scanner.telling false).readsIn order) bytes) := by
  have through := scanner.reader.tellsThrough_silent honest sink
  unfold scanReading
  refine ((Run.printing_ofExcept _).unaware.mirrors sink).bind fun _ _ => ?_
  refine ((Run.printing_ofExcept _).unaware.mirrors sink).bind fun pattern _ => ?_
  refine ((Run.printing_ofHalting _).unaware.mirrors sink).bind fun layout _ => ?_
  refine ((Run.printing_writeLine _).unaware.mirrors sink).bind fun _ _ => ?_
  refine ((Run.printing_writeLine _).unaware.mirrors sink).bind fun _ _ => ?_
  refine ((Survey.unaware_run _ _).mirrors sink).bind fun regions _ => ?_
  refine ((Run.printing_ofChecked _).unaware.mirrors sink).bind fun blocks _ => ?_
  refine ((Run.printing_ofExcept _).unaware.mirrors sink).bind fun _ _ => ?_
  refine ((Run.printing_ofChecked _).unaware.mirrors sink).bind fun _ _ => ?_
  refine (mirrors_readsIn through order pattern regions blocks).bind fun outcome _ => ?_
  exact ((MatchReport.printing_write _ _).bind fun summary =>
    Run.printing_pure _).unaware.mirrors sink

theorem telling_telling (tells last : Bool) :
    (scanner.telling tells).telling last = scanner.telling last :=
  rfl

/-- So any two scans that differ in their diagnostics alone come to the same. -/
theorem scanReading_eq (honest : scanner.target.Honest) (tells : Bool) (sink : Sink) :
    ((scanner.telling tells).scanReading ((scanner.telling tells).readsIn order) bytes
        { trace with diagnostics := sink }).1 =
      (scanner.scanReading (scanner.readsIn order) bytes trace).1 ∧
    { ((scanner.telling tells).scanReading ((scanner.telling tells).readsIn order) bytes
        { trace with diagnostics := sink }).2 with
      diagnostics :=
        (scanner.scanReading (scanner.readsIn order) bytes trace).2.diagnostics } =
      (scanner.scanReading (scanner.readsIn order) bytes trace).2 := by
  have changed := @mirrors_scanReading (scanner.telling tells) honest order bytes
  rw [telling_telling] at changed
  exact same_of_mirrors (mirrors_scanReading honest order bytes) changed trace sink

/-! ## What is told -/

/-- What reading some blocks leaves: one message for each block that was read but not in full.
Where it comes to an outcome, as many blocks were skipped as there are messages, and every block
was read. -/
def ReadTells (scanner : Scanner) (work : PoolWork) (begun : Trace)
    (result : Except (Halt ScanError) ReadOutcome × Trace) : Prop :=
  ∃ asked told, work.Tells begun asked told result.2 ∧
    forall outcome, result.1 = .ok outcome -> outcome.failedBlocks = told.length ∧
      (scanner.hardwareThreads ≠ 0 -> asked.Perm (List.range work.blocks.length))

section Reading

variable {pattern : Pattern} {regions : List Region} {blocks : List ReadBlock}

/-- Where nothing was read, there is no outcome. -/
theorem readTells_of_stopped {work : PoolWork} {answer : Except (Halt ScanError) ReadOutcome}
    (stopped : forall outcome, answer ≠ .ok outcome) :
    scanner.ReadTells work trace (answer, trace) :=
  ⟨[], [], work.tells_nothing trace, fun outcome answered => absurd answered (stopped outcome)⟩

/-- Without workers nothing is read and nothing told. -/
theorem readTells_unmanned (unmanned : scanner.reader.workerCount blocks.length = 0) :
    scanner.ReadTells ⟨scanner.reader, pattern, regions, blocks⟩ trace
      (.ok ⟨[], 0, 0⟩, trace) := by
  refine ⟨[], [], PoolWork.tells_nothing _ trace, ?_⟩
  rintro outcome answered
  cases answered
  refine ⟨rfl, fun threads => ?_⟩
  rw [blocks_eq_nil_of_unmanned threads unmanned]
  exact .nil

variable (honest : scanner.target.Honest) (tells : scanner.tellsFailures = true)
  (takes : trace.diagnostics.TakesAll)

include honest tells takes

theorem readTells_readBlocks :
    scanner.ReadTells ⟨scanner.reader, pattern, regions, blocks⟩ trace
      (scanner.readBlocks pattern regions blocks trace) := by
  unfold readBlocks Reader.run
  by_cases unmanned : scanner.reader.workerCount blocks.length = 0
  · rw [if_pos unmanned]
    exact readTells_unmanned unmanned
  · rw [if_neg unmanned]
    rcases Arena.make (UInt64.ofNat (scanner.reader.workerCount blocks.length))
      ((longestBlock? blocks).getD 0) with cause | arena
    · exact readTells_of_stopped fun outcome => nofun
    · rcases @PoolWork.handleBlocks_tells ⟨scanner.reader, pattern, regions, blocks⟩ trace
        honest tells _ unmanned scanner.budget takes with
        ⟨result, spent, later, asked, ran, told, whole⟩
      dsimp only at ran ⊢
      simp only [bind, StateT.bind, ran]
      rcases result with kind | tally
      · exact ⟨asked, _, told, fun outcome answered => nomatch answered⟩
      · refine ⟨asked, _, told, fun outcome answered => ?_⟩
        rcases ReadTally.of_outcome_eq_ok answered with ⟨calm, admitted, skipped⟩
        rcases whole tally rfl calm admitted with ⟨all, counted⟩
        exact ⟨skipped.trans counted, fun _ => all ▸ .refl _⟩

/-- So it is whatever the order of the reads. -/
theorem readTells_readsIn (order : ReadOrder) :
    scanner.ReadTells ⟨scanner.reader, pattern, regions, blocks⟩ trace
      (scanner.readsIn order pattern regions blocks trace) := by
  cases order with
  | inTurn => exact readTells_readBlocks honest tells takes
  | abreast schedule =>
      unfold readsIn PoolWork.abreast
      dsimp only
      by_cases unmanned : scanner.reader.workerCount blocks.length = 0
      · rw [if_pos unmanned]
        exact readTells_unmanned unmanned
      · rw [if_neg unmanned]
        rcases started : Pool.start ⟨scanner.reader, pattern, regions, blocks⟩
          (UInt64.ofNat (scanner.reader.workerCount blocks.length)) scanner.budget trace with
          cause | first
        · exact readTells_of_stopped fun outcome => nofun
        · dsimp only
          rcases drifted : (first.drift ⟨scanner.reader, pattern, regions, blocks⟩ schedule).filter
            Pool.isDone with _ | last
          · exact readTells_of_stopped fun outcome => nofun
          · rcases Option.filter_eq_some_iff.mp drifted with ⟨reached, done⟩
            rcases Pool.tells_of_isDone (ofNat_workerCount_ne_zero unmanned) honest tells takes
              started reached done with ⟨told, each, counted⟩
            exact ⟨last.readBlocks, told, each, fun outcome answered =>
              ⟨(counted outcome answered).1, fun _ => (counted outcome answered).2⟩⟩

end Reading

/-- What a scan that tells leaves in its receiver.  Either it stopped before the first read, or it
left one message for each block that was read but not in full; where it comes to a summary, every
planned block was read, and as many count as failed as there are messages. -/
inductive ScanTells (scanner : Scanner) (bytes : List UInt8) (begun : Trace) :
    Except (Halt ScanError) ScanSummary × Trace -> Prop where
  | unread (stop : Halt ScanError) (later : Trace) (untold : later.Untold begun) :
    ScanTells scanner bytes begun (.error stop, later)
  | read (answer : Except (Halt ScanError) ScanSummary) (later : Trace) (pattern : Pattern)
    (layout : BlockLayout) (blocks : List ReadBlock) (asked : List Nat) (told : List String)
    (formed : Pattern.ofBytes bytes = .ok pattern)
    (made : BlockLayout.make scanner.granularity scanner.settings.blockFactor
      (UInt64.ofNat pattern.length) = .ok layout)
    (planned : layout.plan (scanner.surveyed pattern) = .ok blocks)
    (owned : forall block, block ∈ blocks ->
      ∃ region, (scanner.surveyed pattern)[block.regionIndex]? = some region)
    (tells : (scanner.work pattern blocks).Tells begun asked told later)
    (counted : forall summary, answer = .ok summary -> summary.failedBlocks = told.length ∧
      (scanner.hardwareThreads ≠ 0 -> asked.Perm (List.range blocks.length))) :
    ScanTells scanner bytes begun (answer, later)

section Telling

variable (honest : scanner.target.Honest) (tells : scanner.tellsFailures = true)
  (takes : trace.diagnostics.TakesAll)

include honest tells takes

/-- From the first read on: the blocks are told about, and the report tells nothing and hands the
number of skipped blocks on. -/
theorem scanTells_of_planned {pattern : Pattern} {layout : BlockLayout} {blocks : List ReadBlock}
    {middle : Trace} {report : ReadOutcome -> Run ScanError ScanSummary}
    (formed : Pattern.ofBytes bytes = .ok pattern)
    (made : BlockLayout.make scanner.granularity scanner.settings.blockFactor
      (UInt64.ofNat pattern.length) = .ok layout)
    (planned : layout.plan (scanner.surveyed pattern) = .ok blocks)
    (untold : middle.Untold trace) (prints : forall outcome, (report outcome).Printing)
    (counts : forall outcome ended summary later,
      report outcome ended = (.ok summary, later) ->
        summary.failedBlocks = outcome.failedBlocks) :
    scanner.ScanTells bytes trace
      ((scanner.readsIn order pattern (scanner.surveyed pattern) blocks >>= report) middle) := by
  have owned : forall block, block ∈ blocks ->
      ∃ region, (scanner.surveyed pattern)[block.regionIndex]? = some region := by
    intro block member
    rcases BlockLayout.exists_region_of_plan planned member with ⟨region, there, -, -⟩
    exact ⟨region, there⟩
  rcases @readTells_readsIn scanner middle pattern (scanner.surveyed pattern) blocks honest tells
    (untold.diagnostics ▸ takes) order with ⟨asked, told, each, counted⟩
  rcases ran : scanner.readsIn order pattern (scanner.surveyed pattern) blocks middle with
    ⟨stop | outcome, ended⟩ <;> rw [ran] at each counted
  · rw [Run.bind_of_error ran]
    exact .read _ ended pattern layout blocks asked told formed made planned owned
      (each.of_untold untold ⟨rfl, rfl⟩) fun summary answered => nomatch answered
  · rw [Run.bind_of_ok ran]
    have quiet := (prints outcome).unaware.leaves ended
    rcases last : report outcome ended with ⟨answer, later⟩
    rw [last] at quiet
    refine .read answer later pattern layout blocks asked told formed made planned owned
      (each.of_untold untold ⟨quiet.1, quiet.2⟩) fun summary answered => ?_
    rw [answered] at last
    rcases counted outcome rfl with ⟨skipped, all⟩
    exact ⟨(counts outcome ended summary later last).trans skipped, all⟩

/-- A scan that tells, into a receiver that takes all, leaves there what it should. -/
theorem scanTells_scanReading :
    scanner.ScanTells bytes trace (scanner.scanReading (scanner.readsIn order) bytes trace) := by
  have stops : forall (stop : Halt ScanError) (later : Trace), later.Untold trace ->
      scanner.ScanTells bytes trace (.error stop, later) := .unread
  unfold scanReading
  -- Nothing is told before the first read.
  refine (Run.printing_ofExcept _).unaware.bind_cases ⟨rfl, rfl⟩ stops fun _ _ _ untold => ?_
  refine (Run.printing_ofExcept _).unaware.bind_cases untold stops
    fun pattern _ formed untold => ?_
  refine (Run.printing_ofHalting _).unaware.bind_cases untold stops
    fun layout _ made untold => ?_
  refine (Run.printing_writeLine _).unaware.bind_cases untold stops fun _ _ _ untold => ?_
  refine (Run.printing_writeLine _).unaware.bind_cases untold stops fun _ _ _ untold => ?_
  refine (Survey.unaware_run _ _).bind_cases untold stops fun regions _ surveyed untold => ?_
  have regions_eq : regions = scanner.surveyed pattern := Survey.found_of_run surveyed
  subst regions_eq
  refine (Run.printing_ofChecked _).unaware.bind_cases untold stops
    fun blocks _ planned untold => ?_
  refine (Run.printing_ofExcept _).unaware.bind_cases untold stops fun _ _ _ untold => ?_
  refine (Run.printing_ofChecked _).unaware.bind_cases untold stops fun _ _ _ untold => ?_
  refine scanTells_of_planned honest tells takes (Run.eq_ok_of_ofExcept formed)
    (congrArg Prod.fst made) (Run.eq_ok_of_ofChecked planned) untold
    (fun outcome => (MatchReport.printing_write _ _).bind fun _ => Run.printing_pure _) ?_
  intro outcome ended summary later last
  rcases Run.exists_of_bind last with ⟨report, _, -, same⟩
  cases same
  rfl

end Telling

/-- A process of one region of four bytes, of which only the first can be read. -/
def stubProcess : StagedProcess where
  regions := [⟨Region.committedPrivate ⟨4096⟩ 4 Protection.readable, [7, 7, 7, 7], 1⟩]

/-- A scanner of that process that tells. -/
def stubScanner : Scanner :=
  (ofSettings stubProcess.target (Settings.standard 4) 4).telling true

theorem stubProcess_ordered : Ordered (Inspected.staged stubProcess).table := by
  refine ⟨fun region member => ?_, fun index region later here next => ?_⟩
  · rw [List.mem_singleton.mp member]
    decide
  · cases next

theorem stubProcess_holds : (Inspected.staged stubProcess).Holds fun _ => 7 := by
  intro staged member index byte found
  rw [List.mem_singleton.mp member] at found
  exact List.eq_of_mem_replicate (List.mem_of_getElem? found : byte ∈ List.replicate 4 7) |>.symm

theorem stubScanner_surveyed : stubScanner.surveyed bytePattern =
    [Region.committedPrivate ⟨4096⟩ 4 Protection.readable] :=
  @surveyed_eq stubScanner _ bytePattern stubProcess_ordered rfl (by decide)

theorem stubScanner_plans : stubScanner.Plans bytePattern [⟨⟨4096⟩, 4, 0⟩] := by
  refine ⟨by decide, rfl, by decide, ⟨_, rfl, ?_⟩, ?_, ⟨_, rfl⟩⟩
  · rw [stubScanner_surveyed]
    unfold BlockLayout.plan
    rw [List.zipIdx_singleton, List.mapM_cons]
    unfold BlockLayout.split BlockLayout.cutFrom
    rfl
  · intro block member
    rw [List.mem_singleton.mp member]
    decide

end Scanner
end MemoryProbe
