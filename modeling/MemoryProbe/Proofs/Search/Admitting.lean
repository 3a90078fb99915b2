import MemoryProbe.Proofs.Search.Telling

namespace MemoryProbe

/-!
The two looks at the memory limit.  A scan compares the longest block of its plan with the
limit before it reads, and the budget compares every block with the same limit when a worker
reserves its bytes.  They agree: a plan with a block above the limit is refused before the
first read, and where a plan is permitted no worker is ever refused.
-/

/-- Whether a cause is the refusal of a block that is longer than a ceiling. -/
def ScanError.IsExcess (cause : ScanError) : Prop :=
  ∃ requested ceiling, cause = .budgetExceeded requested ceiling

/-! ## The causes that a part can fail by -/

namespace Run

variable {Cause Answer Later : Type} {causes : Cause -> Prop}

/-- Every failure of a part has one of some causes. -/
def FailsBy (causes : Cause -> Prop) (part : Run Cause Answer) : Prop :=
  forall trace cause later, part trace = (.error (.failure cause), later) -> causes cause

theorem FailsBy.mono {wider : Cause -> Prop} {part : Run Cause Answer}
    (fails : part.FailsBy causes) (covers : forall cause, causes cause -> wider cause) :
    part.FailsBy wider :=
  fun trace cause later failed => covers cause (fails trace cause later failed)

theorem FailsBy.bind {part : Run Cause Answer} {rest : Answer -> Run Cause Later}
    (first : part.FailsBy causes) (second : forall answer, (rest answer).FailsBy causes) :
    (part >>= rest).FailsBy causes := by
  intro trace cause later failed
  rcases ran : part trace with ⟨stop | answer, middle⟩
  · rw [bind_of_error ran] at failed
    cases failed
    exact first trace cause later ran
  · rw [bind_of_ok ran] at failed
    exact second answer middle cause later failed

theorem FailsBy.then {part : Run Cause Unit} {rest : Run Cause Later}
    (first : part.FailsBy causes) (second : rest.FailsBy causes) :
    (part >>= fun _ => rest).FailsBy causes :=
  first.bind fun _ => second

theorem failsBy_pure (answer : Answer) : (pure answer : Run Cause Answer).FailsBy causes :=
  nofun

theorem failsBy_halt (kind : Fault) : (halt kind : Run Cause Answer).FailsBy causes :=
  nofun

theorem failsBy_ofChecked (answer : Except Fault Answer) :
    (ofChecked answer : Run Cause Answer).FailsBy causes := by
  intro trace cause later failed
  cases answer <;> cases failed

theorem failsBy_ofExcept {result : Except Cause Answer}
    (known : forall cause, result = .error cause -> causes cause) :
    (ofExcept result).FailsBy causes := by
  intro trace cause later failed
  cases result with
  | error other =>
      cases failed
      exact known cause rfl
  | ok answer => cases failed

variable [OfIoError Cause]

/-- A part that asks for something and comes to an answer fails only where it is refused. -/
theorem Wants.failsBy {part : Run Cause Answer} {requests : List SinkRequest} {answer : Answer}
    (wants : part.Wants requests (.ok answer)) : part.FailsBy IsRefusal := by
  intro trace cause later failed
  rcases wants trace with ⟨_, -, came⟩ | ⟨_, -, came⟩
  · cases came.symm.trans failed
  · cases came.symm.trans failed
    rfl

theorem failsBy_writeLine (text : String) :
    (writeLine text : Run Cause Unit).FailsBy IsRefusal :=
  (wants_writeLine text).failsBy

theorem failsBy_forM_write (texts : List String) :
    (texts.forM write : Run Cause Unit).FailsBy IsRefusal := by
  have wants : (texts.forM write : Run Cause Unit).Wants _ (.ok ()) :=
    wants_forM fun text => wants_request (.write text)
  exact wants.failsBy

end Run

open Run

namespace MatchReport

variable {Cause : Type} [OfIoError Cause] (report : MatchReport)

theorem failsBy_listEntries (current : Option Nat) (entries : List MatchEntry) :
    (report.listEntries current entries : Run Cause Unit).FailsBy IsRefusal := by
  induction entries generalizing current with
  | nil => exact failsBy_pure ()
  | cons entry rest ih =>
      have lines : (do
          writeLine ("\tMatch at address: " ++ entry.address.text)
          report.listEntries (some entry.regionIndex) rest : Run Cause Unit).FailsBy IsRefusal :=
        (failsBy_writeLine _).then (ih (some entry.regionIndex))
      unfold listEntries
      dsimp only
      split
      · split
        · refine (failsBy_writeLine "").then ?_
          split
          · exact (failsBy_halt _).then lines
          · exact (failsBy_forM_write _).then ((failsBy_writeLine "").then lines)
        · split
          · exact (failsBy_halt _).then lines
          · exact (failsBy_forM_write _).then ((failsBy_writeLine "").then lines)
      · exact lines

/-- A report fails only where the output refuses a line. -/
theorem failsBy_write (hits : List (List Address)) :
    (report.write hits : Run Cause ReportSummary).FailsBy IsRefusal := by
  unfold MatchReport.write
  dsimp only
  split
  · exact (failsBy_writeLine _).then (failsBy_pure _)
  · split
    · exact (failsBy_writeLine _).then (failsBy_pure _)
    · refine (failsBy_writeLine _).then ?_
      refine (report.failsBy_listEntries none _).then ?_
      exact (failsBy_writeLine _).then (failsBy_pure _)

end MatchReport

/-! ## What fits the limit is not refused -/

/-- A reader that handles blocks in turn is refused none that fits the ceiling. -/
theorem Reader.refusal_of_handleBlocks {reader : Reader} {pattern : Pattern}
    {regions : List Region} {workers : Nat} {blocks : List ReadBlock} {tally later : ReadTally}
    {budget spent : Budget} {trace ended : Trace}
    (fits : forall block, block ∈ blocks -> block.length ≤ budget.ceiling)
    (ran : reader.handleBlocks pattern regions workers tally budget blocks trace =
      ((.ok later, spent), ended)) : later.refusal = tally.refusal := by
  induction blocks generalizing tally budget trace with
  | nil =>
      cases ran
      rfl
  | cons block rest ih =>
      rw [List.forall_mem_cons] at fits
      unfold Reader.handleBlocks at ran
      split at ran
      · cases ran
        rfl
      · split at ran
        · rename_i refused
          exact absurd refused (Budget.acquire_ne_failure fits.1 _)
        · exact (ih fits.2 ran).trans rfl
        · cases ran
        · rename_i held granted
          have same : (held.release block.length).ceiling = budget.ceiling := by
            have reserves := budget.acquire_reserves block.length
            rw [granted] at reserves
            cases reserves
            rfl
          have room : forall other, other ∈ rest ->
              other.length ≤ (held.release block.length).ceiling := same ▸ fits.2
          split at ran
          · rename_i handled between asked
            have added : (tally.add handled).refusal = tally.refusal := by
              cases handled <;> rfl
            exact (ih room ran).trans added
          · exact (ih room ran).trans rfl

section Excess

variable {cause : ScanError}

theorem Arena.not_isExcess_of_make {workers capacity : Word}
    (refused : Arena.make workers capacity = .error cause) : ¬cause.IsExcess := by
  rintro ⟨requested, ceiling, rfl⟩
  unfold make at refused
  repeat' split at refused
  all_goals cases refused

theorem Pool.not_isExcess_of_start {work : PoolWork} {workers : Word} {budget : Budget}
    {trace : Trace} (refused : Pool.start work workers budget trace = .error cause) :
    ¬cause.IsExcess := by
  unfold start at refused
  cases made : Arena.make workers ((longestBlock? work.blocks).getD 0) with
  | error other =>
      rw [made] at refused
      cases refused
      exact Arena.not_isExcess_of_make made
  | ok arena =>
      rw [made] at refused
      cases refused

theorem Pool.Unrefused.not_isExcess_of_answer {work : PoolWork} {pool : Pool}
    (unrefused : pool.Unrefused) (answered : pool.answer work = .error (.failure cause)) :
    ¬cause.IsExcess := by
  rintro ⟨requested, ceiling, rfl⟩
  rw [Pool.answer_eq_of_faults] at answered
  split at answered
  · rw [unrefused.noCause] at answered
    cases answered
  · cases answered
  · cases answered

theorem ReadTally.not_isExcess_of_outcome {tally : ReadTally} {workers : Nat}
    (admitted : tally.refusal = none)
    (answered : tally.outcome workers = .error (.failure cause)) : ¬cause.IsExcess := by
  rintro ⟨requested, ceiling, rfl⟩
  unfold outcome at answered
  split at answered
  · rw [admitted] at answered
    cases answered
  · cases answered
  · cases answered

theorem BlockLayout.not_isExcess_of_make {granularity factor patternLength : Word}
    (refused : make granularity factor patternLength = .error (.failure cause)) :
    ¬cause.IsExcess := by
  rintro ⟨requested, ceiling, rfl⟩
  unfold make at refused
  split at refused
  · cases refused
  split at refused
  · cases refused
  split at refused
  · cases refused
  split at refused
  · cases refused
  · cases rounded : Word.alignUp patternLength overlapAlignment with
    | error kind =>
        rw [rounded] at refused
        cases refused
    | ok overlap =>
        rw [rounded] at refused
        change (if h : _ then _ else _) = Except.error _ at refused
        split at refused <;> cases refused

end Excess

namespace Scanner

variable {scanner : Scanner} {pattern : Pattern} {regions : List Region}
  {blocks : List ReadBlock} {bytes : List UInt8} {trace : Trace}

theorem permit_eq_error_iff {cause : ScanError} :
    scanner.permit blocks = .error cause <->
      ∃ longest, longestBlock? blocks = some longest ∧
        scanner.settings.memoryLimit < longest ∧
        cause = .budgetExceeded longest scanner.settings.memoryLimit := by
  unfold permit
  cases longestBlock? blocks with
  | none => simp
  | some longest =>
      by_cases wide : scanner.settings.memoryLimit < longest
      · simp [wide, eq_comm]
      · simp [wide]

/-- A plan is permitted exactly if all of its blocks fit the memory limit. -/
theorem permit_eq_ok_iff :
    scanner.permit blocks = .ok () <->
      forall block, block ∈ blocks -> block.length ≤ scanner.settings.memoryLimit := by
  constructor
  · intro permitted block member
    have least := le_longestBlock member
    cases longest : longestBlock? blocks with
    | none =>
        rw [longest] at least
        exact UInt64.le_iff_toNat_le.mpr (Nat.le_trans least (Nat.zero_le _))
    | some greatest =>
        rw [longest] at least
        refine UInt64.le_trans (UInt64.le_iff_toNat_le.mpr least) (UInt64.not_lt.mp fun wide => ?_)
        have refused := permit_eq_error_iff.mpr ⟨greatest, longest, wide, rfl⟩
        cases permitted.symm.trans refused
  · intro fits
    cases permits : scanner.permit blocks with
    | ok => rfl
    | error cause =>
        rcases permit_eq_error_iff.mp permits with ⟨longest, greatest, wide, -⟩
        exact absurd wide (UInt64.not_lt.mpr (longestBlock_le fits greatest))

section Permitted

variable (permitted : scanner.permit blocks = .ok ())

include permitted

theorem failsBy_readBlocks :
    (scanner.readBlocks pattern regions blocks).FailsBy fun cause => ¬cause.IsExcess := by
  intro begun cause later failed
  unfold readBlocks Reader.run at failed
  by_cases unmanned : scanner.reader.workerCount blocks.length = 0
  · rw [if_pos unmanned] at failed
    cases failed
  · rw [if_neg unmanned] at failed
    cases made : Arena.make (UInt64.ofNat (scanner.reader.workerCount blocks.length))
      ((longestBlock? blocks).getD 0) with
    | error other =>
        rw [made] at failed
        cases failed
        exact Arena.not_isExcess_of_make made
    | ok arena =>
        rw [made] at failed
        rcases ran : scanner.reader.handleBlocks pattern regions
          (scanner.reader.workerCount blocks.length) {} scanner.budget blocks begun with
          ⟨⟨kind | tally, spent⟩, ended⟩
        · simp only [bind, StateT.bind, ran] at failed
          cases failed
        · have admitted := Reader.refusal_of_handleBlocks (permit_eq_ok_iff.mp permitted) ran
          simp only [bind, StateT.bind, ran] at failed
          exact ReadTally.not_isExcess_of_outcome admitted (congrArg Prod.fst failed)

/-- A permitted plan is read without a refusal, in whatever order. -/
theorem failsBy_readsIn (order : ReadOrder) :
    (scanner.readsIn order pattern regions blocks).FailsBy fun cause => ¬cause.IsExcess := by
  cases order with
  | inTurn => exact failsBy_readBlocks permitted
  | abreast schedule =>
      intro begun cause later failed
      unfold readsIn PoolWork.abreast at failed
      dsimp only at failed
      split at failed
      · cases failed
      · split at failed
        · rename_i other refused
          cases failed
          exact Pool.not_isExcess_of_start refused
        · split at failed
          · cases failed
          · rename_i first started _ last drifted
            rcases Option.filter_eq_some_iff.mp drifted with ⟨reached, -⟩
            have unrefused := Pool.unrefused_of_drift (permit_eq_ok_iff.mp permitted) started
              reached
            exact unrefused.not_isExcess_of_answer (congrArg Prod.fst failed)

end Permitted

/-! ## Before the first read -/

/-- The settings, the layout and the survey of a scan raise no objection, and the regions that
the survey keeps are cut into these blocks. -/
structure Planned (scanner : Scanner) (pattern : Pattern) (blocks : List ReadBlock) : Prop where
  accepted : scanner.settings.validate = .ok ()
  visited : Survey.fault? (visitsFrom scanner.target.query Address.zero) = none
  cut : ∃ layout,
    BlockLayout.make scanner.granularity scanner.settings.blockFactor
      (UInt64.ofNat pattern.length) = .ok layout ∧
    layout.plan (scanner.surveyed pattern) = .ok blocks

/-- What a scan does with its plan: look at the memory limit, read, and report. -/
def carryOut (scanner : Scanner) (reads : ReadPhase) (pattern : Pattern)
    (regions : List Region) (blocks : List ReadBlock) : Run ScanError ScanSummary := do
  Run.ofExcept (scanner.permit blocks)
  let _ <- Run.ofChecked (totalSize regions)
  let outcome <- reads pattern regions blocks
  let report : MatchReport := ⟨scanner.target, regions, blocks, scanner.settings.maxResults⟩
  let summary <- report.write outcome.hits
  return {
    regions := regions.length
    blocks := blocks.length
    workers := outcome.workers
    failedBlocks := outcome.failedBlocks
    rawMatches := summary.rawMatches
    uniqueMatches := summary.uniqueMatches
    outcome := summary.outcome }

/-- What a scan does behind its heading. -/
def proceed (scanner : Scanner) (reads : ReadPhase) (pattern : Pattern) (layout : BlockLayout) :
    Run ScanError ScanSummary := do
  let regions <- (survey pattern).run scanner.target
  let blocks <- Run.ofChecked (layout.plan regions)
  scanner.carryOut reads pattern regions blocks

/-- A permitted plan is carried out without a refusal. -/
theorem failsBy_carryOut (permitted : scanner.permit blocks = .ok ()) (order : ReadOrder) :
    (scanner.carryOut (scanner.readsIn order) pattern regions blocks).FailsBy
      fun cause => ¬cause.IsExcess := by
  have refusal : forall cause : ScanError, Run.IsRefusal cause -> ¬cause.IsExcess := by
    rintro _ rfl ⟨_, _, same⟩
    cases same
  unfold carryOut
  refine (Run.failsBy_ofExcept fun cause refused => ?_).then ?_
  · cases permitted.symm.trans refused
  refine (Run.failsBy_ofChecked _).bind fun _ => ?_
  refine (failsBy_readsIn permitted order).bind fun outcome => ?_
  exact ((MatchReport.failsBy_write _ _).mono refusal).bind fun summary => Run.failsBy_pure _

/-- What becomes of a scan.  Whoever is to read, it stops without a plan, or the plan is refused
behind the heading.  Else the plan is permitted, and the limit does not come up again. -/
inductive Judged (scanner : Scanner) (bytes : List UInt8) (begun : Trace) : Prop where
  | unplanned (stop : Halt ScanError) (later : Trace) (unread : later.reads = begun.reads)
    (calm : forall cause, stop = .failure cause -> ¬cause.IsExcess)
    (none : forall pattern blocks, Pattern.ofBytes bytes = .ok pattern ->
      ¬scanner.Planned pattern blocks)
    (stops : forall reads, scanner.scanReading reads bytes begun = (.error stop, later)) :
    Judged scanner bytes begun
  | refused (pattern : Pattern) (blocks : List ReadBlock) (longest : Word) (later : Trace)
    (formed : Pattern.ofBytes bytes = .ok pattern) (plan : scanner.Planned pattern blocks)
    (greatest : longestBlock? blocks = some longest)
    (wide : scanner.settings.memoryLimit < longest) (unread : later.reads = begun.reads)
    (headed : later.out.text = begun.out.text ++ heading)
    (stops : forall reads, scanner.scanReading reads bytes begun =
      (.error (.failure (.budgetExceeded longest scanner.settings.memoryLimit)), later)) :
    Judged scanner bytes begun
  | permitted (pattern : Pattern) (blocks : List ReadBlock)
    (formed : Pattern.ofBytes bytes = .ok pattern) (plan : scanner.Planned pattern blocks)
    (permits : scanner.permit blocks = .ok ())
    (calm : forall order cause later,
      scanner.scanReading (scanner.readsIn order) bytes begun = (.error (.failure cause), later) ->
        ¬cause.IsExcess) :
    Judged scanner bytes begun

section Takes

variable (takes : trace.out.TakesAll)

include takes

/-- With a layout in hand, a scan writes its heading and goes on. -/
theorem exists_headed {layout : BlockLayout} (accepted : scanner.settings.validate = .ok ())
    (formed : Pattern.ofBytes bytes = .ok pattern)
    (made : BlockLayout.make scanner.granularity scanner.settings.blockFactor
      (UInt64.ofNat pattern.length) = .ok layout) :
    ∃ sink : Sink, sink.TakesAll ∧ sink.text = trace.out.text ++ heading ∧
      forall reads, scanner.scanReading reads bytes trace =
        scanner.proceed reads pattern layout { trace with out := sink } := by
  have writes := fun (sink : Sink) (all : sink.TakesAll) =>
    @Run.writeLine_of_takesAll ScanError _ trace sink all
  rcases writes trace.out takes "Searching committed memory..." with
    ⟨titled, first, stays, title⟩
  rcases writes titled stays ("\n" ++ reportRule ++ "\n") with ⟨sink, second, still, text⟩
  refine ⟨sink, still, ?_, fun reads => ?_⟩
  · rw [text, title, String.append_assoc]
    rfl
  · have layed : (Run.ofHalting (BlockLayout.make scanner.granularity
        scanner.settings.blockFactor (UInt64.ofNat pattern.length)) : Run ScanError _) trace =
          (.ok layout, trace) := by
      rw [made]
      rfl
    unfold scanReading
    rw [accepted, formed]
    refine (Run.bind_of_ok rfl).trans ((Run.bind_of_ok rfl).trans ((Run.bind_of_ok layed).trans ?_))
    exact (Run.bind_of_ok first).trans (Run.bind_of_ok second)

/-- From there on the survey or the cutting faults, or there is a plan, which is looked at. -/
theorem judged_of_made {layout : BlockLayout} (accepted : scanner.settings.validate = .ok ())
    (formed : Pattern.ofBytes bytes = .ok pattern)
    (made : BlockLayout.make scanner.granularity scanner.settings.blockFactor
      (UInt64.ofNat pattern.length) = .ok layout) : scanner.Judged bytes trace := by
  rcases exists_headed takes accepted formed made with ⟨sink, stays, text, goesOn⟩
  let visits := visitsFrom scanner.target.query Address.zero
  let middle : Trace := { trace with
    out := sink
    warnings := trace.warnings ++ Survey.warnings scanner.target.pid visits }
  have no_plan : (forall blocks, ¬scanner.Planned pattern blocks) ->
      forall other blocks, Pattern.ofBytes bytes = .ok other -> ¬scanner.Planned other blocks := by
    intro none other blocks named
    cases formed.symm.trans named
    exact none blocks
  rcases faults : Survey.fault? visits with _ | kind
  · have ran : ((survey pattern).run scanner.target : Run ScanError (List Region))
        { trace with out := sink } = (.ok (scanner.surveyed pattern), middle) := by
      unfold Survey.run
      dsimp only
      rw [faults]
      rfl
    have surveyed := fun reads => (goesOn reads).trans (Run.bind_of_ok ran)
    rcases cut : layout.plan (scanner.surveyed pattern) with kind | blocks
    · refine .unplanned (.fault kind) middle rfl nofun (no_plan ?_) fun reads => ?_
      · rintro blocks ⟨-, -, other, makes, cuts⟩
        cases made.symm.trans makes
        cases cut.symm.trans cuts
      · rw [surveyed]
        exact Run.bind_of_error (by rw [cut]; rfl)
    · have plan : scanner.Planned pattern blocks := ⟨accepted, faults, layout, made, cut⟩
      have carried : forall reads, scanner.scanReading reads bytes trace =
          scanner.carryOut reads pattern (scanner.surveyed pattern) blocks middle := by
        intro reads
        rw [surveyed]
        exact Run.bind_of_ok (by rw [cut]; rfl)
      rcases permits : scanner.permit blocks with cause | _
      · rcases permit_eq_error_iff.mp permits with ⟨longest, greatest, wide, rfl⟩
        refine .refused pattern blocks longest middle formed plan greatest wide rfl text
          fun reads => ?_
        rw [carried]
        exact Run.bind_of_error (by rw [permits]; rfl)
      · refine .permitted pattern blocks formed plan permits fun order cause later failed => ?_
        rw [carried] at failed
        exact failsBy_carryOut permits order middle cause later failed
  · refine .unplanned (.fault kind) middle rfl nofun (no_plan ?_) fun reads => ?_
    · rintro blocks ⟨-, visited, -⟩
      cases faults.symm.trans visited
    · rw [goesOn]
      refine Run.bind_of_error ?_
      unfold Survey.run
      dsimp only
      rw [faults]

theorem judged (bytes : List UInt8) : scanner.Judged bytes trace := by
  rcases accepted : scanner.settings.validate with defect | _
  · refine .unplanned (.failure (.settings defect)) trace rfl ?_ ?_ fun reads => ?_
    · rintro _ ⟨⟩ ⟨_, _, same⟩
      cases same
    · intro pattern blocks _ plan
      cases accepted.symm.trans plan.accepted
    · unfold scanReading
      exact Run.bind_of_error (by rw [accepted]; rfl)
  have valid : (Run.ofExcept (scanner.settings.validate.mapError .settings) :
      Run ScanError Unit) trace = (.ok (), trace) := by
    rw [accepted]
    rfl
  rcases formed : Pattern.ofBytes bytes with cause | pattern
  · refine .unplanned (.failure cause) trace rfl ?_ ?_ fun reads => ?_
    · unfold Pattern.ofBytes at formed
      split at formed
      · cases formed
        rintro _ ⟨⟩ ⟨_, _, same⟩
        cases same
      · cases formed
    · intro pattern blocks named _
      cases formed.symm.trans named
    · unfold scanReading
      rw [Run.bind_of_ok valid]
      exact Run.bind_of_error (by rw [formed]; rfl)
  rcases made : BlockLayout.make scanner.granularity scanner.settings.blockFactor
    (UInt64.ofNat pattern.length) with stop | layout
  · refine .unplanned stop trace rfl ?_ ?_ fun reads => ?_
    · rintro cause rfl
      exact BlockLayout.not_isExcess_of_make made
    · rintro other blocks named ⟨-, -, layout, makes, -⟩
      cases formed.symm.trans named
      cases made.symm.trans makes
    · unfold scanReading
      rw [Run.bind_of_ok valid, formed]
      exact (Run.bind_of_ok rfl).trans (Run.bind_of_error (by rw [made]; rfl))
  · exact judged_of_made takes accepted formed made

end Takes

/-! ## The two looks agree -/

/-- A pattern has one plan. -/
theorem Planned.blocks_eq {others : List ReadBlock} (plan : scanner.Planned pattern blocks)
    (also : scanner.Planned pattern others) : others = blocks := by
  rcases plan.cut with ⟨layout, made, cut⟩
  rcases also.cut with ⟨other, makes, cuts⟩
  cases made.symm.trans makes
  exact Except.ok.inj (cuts.symm.trans cut)

theorem Judged.excess_iff (judged : scanner.Judged bytes trace) (order : ReadOrder)
    (requested ceiling : Word) :
    (scanner.scanReading (scanner.readsIn order) bytes trace).1 =
        .error (.failure (.budgetExceeded requested ceiling)) <->
      ceiling = scanner.settings.memoryLimit ∧ ceiling < requested ∧
        ∃ pattern blocks, Pattern.ofBytes bytes = .ok pattern ∧
          scanner.Planned pattern blocks ∧ longestBlock? blocks = some requested := by
  cases judged with
  | unplanned stop later unread calm none stops =>
      rw [stops]
      constructor
      · intro excess
        cases excess
        exact absurd ⟨requested, ceiling, rfl⟩ (calm _ rfl)
      · rintro ⟨-, -, pattern, blocks, formed, plan, -⟩
        exact absurd plan (none pattern blocks formed)
  | refused pattern blocks longest later formed plan greatest wide unread headed stops =>
      rw [stops]
      constructor
      · intro excess
        cases excess
        exact ⟨rfl, wide, pattern, blocks, formed, plan, greatest⟩
      · rintro ⟨rfl, -, other, others, named, also, longer⟩
        cases formed.symm.trans named
        rw [plan.blocks_eq also, greatest] at longer
        cases longer
        rfl
  | permitted pattern blocks formed plan permits calm =>
      constructor
      · intro excess
        exact absurd ⟨requested, ceiling, rfl⟩ (calm order _ _ (Prod.ext excess rfl))
      · rintro ⟨rfl, wide, other, others, named, also, longer⟩
        cases formed.symm.trans named
        rw [plan.blocks_eq also] at longer
        cases permits.symm.trans (permit_eq_error_iff.mpr ⟨requested, longer, wide, rfl⟩)

theorem Judged.untouched (judged : scanner.Judged bytes trace) {order : ReadOrder}
    {requested ceiling : Word} {ended : Trace}
    (excess : scanner.scanReading (scanner.readsIn order) bytes trace =
      (.error (.failure (.budgetExceeded requested ceiling)), ended)) :
    ended.reads = trace.reads ∧ ended.out.text = trace.out.text ++ heading := by
  cases judged with
  | unplanned stop later unread calm none stops =>
      cases (stops _).symm.trans excess
      exact absurd ⟨requested, ceiling, rfl⟩ (calm _ rfl)
  | refused pattern blocks longest later formed plan greatest wide unread headed stops =>
      cases (stops _).symm.trans excess
      exact ⟨unread, headed⟩
  | permitted pattern blocks formed plan permits calm =>
      exact absurd ⟨requested, ceiling, rfl⟩ (calm order _ _ excess)

/-- Without a permitted plan, it does not matter who is to read. -/
theorem Judged.idle (judged : scanner.Judged bytes trace)
    (forbidden : forall pattern blocks, Pattern.ofBytes bytes = .ok pattern ->
      scanner.Planned pattern blocks -> scanner.permit blocks ≠ .ok ()) :
    ∃ stop later, later.reads = trace.reads ∧
      forall reads, scanner.scanReading reads bytes trace = (.error stop, later) := by
  cases judged with
  | unplanned stop later unread calm none stops => exact ⟨stop, later, unread, stops⟩
  | refused pattern blocks longest later formed plan greatest wide unread headed stops =>
      exact ⟨_, later, unread, stops⟩
  | permitted pattern blocks formed plan permits calm =>
      exact absurd permits (forbidden pattern blocks formed plan)

/-- The regions that are cut are the committed ones that the survey visits, if they are at least
as long as the pattern. -/
theorem mem_surveyed_iff_visited (short : pattern.length < UInt64.size) {region : Region} :
    region ∈ scanner.surveyed pattern <->
      (∃ visit, visit ∈ visitsFrom scanner.target.query Address.zero ∧
        visit.region? = some region) ∧
      region.isCommitted = true ∧ pattern.length ≤ region.size.toNat := by
  unfold surveyed
  rw [found_eq_filter, List.mem_filter, List.mem_filterMap]
  refine and_congr_right fun _ => ?_
  unfold Survey.keeps
  rw [Bool.and_eq_true, decide_eq_true_eq, UInt64.le_iff_toNat_le, survey_minimumSize short]
  rfl

/-- The survey of a process whose regions follow each other does not fault. -/
theorem visited_of_ordered {process : Inspected} (ordered : Ordered process.table)
    (looks : scanner.target = process.target) :
    Survey.fault? (visitsFrom scanner.target.query Address.zero) = none := by
  have answers := process.answers ordered
  refine fault?_visitsFrom (fun address kind faulted => ?_) _
  rw [looks] at faulted
  by_cases fails : process.failingQuery = some address
  · rcases answers.fails address fails with ⟨cause, failed⟩
    cases failed.symm.trans faulted
  · cases (answers.charted address fails).symm.trans faulted

/-- A scan is refused for the memory limit exactly if it comes to a plan whose longest block
exceeds that limit.  The plan is of all committed regions that the survey visits and that are as
long as the pattern.  Nothing was read then, and the output holds the heading alone.  A scan
without a permitted plan does not come to its readers.  Where the plan is permitted, no worker is
refused, whoever they are and in whatever order they take their steps. -/
theorem scan_refuses_before_reading (takes : trace.out.TakesAll) (order : ReadOrder)
    (bytes : List UInt8) :
    (forall requested ceiling,
      (scanner.scanReading (scanner.readsIn order) bytes trace).1 =
          .error (.failure (.budgetExceeded requested ceiling)) <->
        ceiling = scanner.settings.memoryLimit ∧ ceiling < requested ∧
          ∃ pattern blocks, Pattern.ofBytes bytes = .ok pattern ∧
            scanner.Planned pattern blocks ∧ longestBlock? blocks = some requested) ∧
    (forall requested ceiling later,
      scanner.scanReading (scanner.readsIn order) bytes trace =
          (.error (.failure (.budgetExceeded requested ceiling)), later) ->
        later.reads = trace.reads ∧ later.out.text = trace.out.text ++ heading) ∧
    ((forall pattern blocks, Pattern.ofBytes bytes = .ok pattern ->
        scanner.Planned pattern blocks -> scanner.permit blocks ≠ .ok ()) ->
      ∃ stop later, later.reads = trace.reads ∧
        forall reads, scanner.scanReading reads bytes trace = (.error stop, later)) ∧
    (forall pattern blocks, scanner.Planned pattern blocks -> scanner.permit blocks = .ok () ->
      forall (workers : Word) (begun : Trace) (schedule : List (Nat × Bool)) (first last : Pool),
        Pool.start (scanner.work pattern blocks) workers scanner.budget begun = .ok first ->
        first.drift (scanner.work pattern blocks) schedule = some last -> last.Unrefused) ∧
    forall pattern : Pattern, pattern.length < UInt64.size -> forall region,
      (region ∈ scanner.surveyed pattern <->
        (∃ visit, visit ∈ visitsFrom scanner.target.query Address.zero ∧
          visit.region? = some region) ∧
        region.isCommitted = true ∧ pattern.length ≤ region.size.toNat) ∧
      forall process : Inspected, Ordered process.table -> scanner.target = process.target ->
        (region ∈ scanner.surveyed pattern <-> region ∈ process.table ∧
          process.offers region = true ∧ pattern.length ≤ region.size.toNat) := by
  have judged : scanner.Judged bytes trace := judged takes bytes
  exact ⟨judged.excess_iff order, fun _ _ _ => judged.untouched, judged.idle,
    fun pattern blocks _ permitted _ _ _ _ _ =>
      Pool.unrefused_of_drift (permit_eq_ok_iff.mp permitted),
    fun pattern short region => ⟨mem_surveyed_iff_visited short, fun process ordered looks =>
      mem_surveyed ordered looks short⟩⟩

/-- A scanner of the process of four bytes whose memory limit is three. -/
def tightScanner : Scanner :=
  { stubScanner with settings := { stubScanner.settings with memoryLimit := 3 } }

theorem tightScanner_planned : tightScanner.Planned bytePattern [⟨⟨4096⟩, 4, 0⟩] :=
  ⟨rfl, @visited_of_ordered tightScanner _ stubProcess_ordered rfl, stubScanner_plans.planned⟩

/-- The scan of the four bytes is refused behind its heading. -/
theorem scan_refuses_before_reading_of_tight :
    ∃ later, tightScanner.scanReading (tightScanner.readsIn .inTurn) [7] {} =
        (.error (.failure (.budgetExceeded 4 3)), later) ∧
      later.reads = 0 ∧ later.out.text = "" ++ heading := by
  have refuses := @scan_refuses_before_reading tightScanner {} (fun _ _ _ => rfl) .inTurn [7]
  have excess := (refuses.1 4 3).mpr
    ⟨rfl, by decide, bytePattern, _, rfl, tightScanner_planned, rfl⟩
  have ran : tightScanner.scanReading (tightScanner.readsIn .inTurn) [7] {} =
      (.error (.failure (.budgetExceeded 4 3)), _) := Prod.ext excess rfl
  exact ⟨_, ran, refuses.2.1 4 3 _ ran⟩

end Scanner

end MemoryProbe
