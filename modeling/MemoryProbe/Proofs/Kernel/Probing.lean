import MemoryProbe.Machine.Staged
import MemoryProbe.Program
import MemoryProbe.Proofs.Heap.Reciting
import MemoryProbe.Proofs.Kernel.Viewing
import MemoryProbe.Proofs.Region.Hulls
import MemoryProbe.Proofs.Shell.Notices

namespace MemoryProbe

/-!
Whether a process can be read at all.  Its mappings are listed even where its memory is out of
reach, so one word of the first region that may be read is tried when it is opened for reading.
A failure that concerns the whole process is told at once: nothing is searched, and a walk of
its heaps goes on without contents.
-/

/-- What a code of a failed read says about the whole process. -/
inductive Bars (pid : UInt32) : Int -> MemoryError -> Prop where
  | notPermitted : Bars pid 1 (.accessDenied pid 1)
  | denied : Bars pid 13 (.accessDenied pid 13)
  | gone : Bars pid 3 (.processNotFound pid)
  | uncallable : Bars pid 38 (.openFailed pid 38)

/-- The region that is tried: the first one that may be read. -/
structure Tries (regions : List Region) (region : Region) : Prop where
  split : ∃ front back, regions = front ++ region :: back ∧
    forall earlier, earlier ∈ front -> earlier.protection.read = false
  reads : region.protection.read = true

namespace LiveProcess

variable {machine : Machine} {pid : UInt32} {code : Int} {cause : MemoryError}
  {earlierReads : Nat}

theorem accessError?_eq_some_iff : accessError? pid code = some cause <-> Bars pid code cause := by
  constructor
  · intro barred
    unfold accessError? at barred
    split at barred
    · rename_i which
      cases barred
      rcases which with rfl | rfl
      · exact .notPermitted
      · exact .denied
    · split at barred
      · rename_i same
        cases barred
        exact same ▸ .gone
      · split at barred
        · rename_i same
          cases barred
          exact same ▸ .uncallable
        · contradiction
  · rintro (_ | _ | _ | _) <;> rfl

/-- Why the word that is tried cannot be read after some reads, if this concerns the whole
process. -/
def barrier? (process : LiveProcess) (machine : Machine) (earlierReads : Nat) :
    Option MemoryError :=
  process.probed?.bind fun region =>
    match machine.readMemory process.pid earlierReads region.base probeLength with
    | .ok _ => none
    | .error code => accessError? process.pid code

variable {process : LiveProcess}

/-- A process is opened for reading as it is opened, unless something is in the way. -/
theorem openReadable_of_openOn (opened : openOn machine pid = .ok process) :
    openReadable machine pid earlierReads =
      (process.barrier? machine earlierReads).elim (.ok process) .error := by
  have own := pid_of_openOn opened
  unfold openReadable barrier?
  rw [opened]
  simp only [bind, Except.bind]
  cases process.probed? with
  | none => rfl
  | some region =>
      rw [Option.bind_some, target, own]
      dsimp only [readOn, probeLength]
      rw [if_neg (by decide)]
      cases machine.readMemory pid earlierReads region.base 8 with
      | ok bytes => rfl
      | error code =>
          dsimp only [Except.mapError]
          cases accessError? pid code <;> rfl

/-- What may be read of an opened process can be read. -/
theorem canRead_of_openOn (opened : openOn machine pid = .ok process) {region : Region}
    (member : region ∈ process.regions) : region.protection.canRead = region.protection.read := by
  rcases openOn_eq_ok_iff.mp opened with ⟨listing, mappings, -, parsed, rfl⟩
  have perm := @Mapping.regions_perm (ImageModule.ofMappings mappings) mappings
  rcases List.mem_map.mp (perm.mem_iff.mp member) with ⟨mapping, among, rfl⟩
  rw [Mapping.region_protection]
  exact Mapping.canRead_of_ofListing parsed among

theorem probed?_eq_some_iff_tries (opened : openOn machine pid = .ok process)
    {region : Region} : process.probed? = some region <-> Tries process.regions region := by
  unfold probed?
  rw [List.find?_eq_some_iff_append]
  constructor
  · rintro ⟨reads, front, back, split, passed⟩
    have here : region ∈ process.regions := split ▸ List.mem_append_right _ List.mem_cons_self
    refine ⟨⟨front, back, split, fun earlier among => ?_⟩, canRead_of_openOn opened here ▸ reads⟩
    have before : earlier ∈ process.regions := split ▸ List.mem_append_left _ among
    have misses := passed earlier among
    rw [canRead_of_openOn opened before, Bool.not_eq_true'] at misses
    exact misses
  · rintro ⟨⟨front, back, split, passed⟩, reads⟩
    have here : region ∈ process.regions := split ▸ List.mem_append_right _ List.mem_cons_self
    refine ⟨(canRead_of_openOn opened here).trans reads, front, back, split,
      fun earlier among => ?_⟩
    have before : earlier ∈ process.regions := split ▸ List.mem_append_left _ among
    rw [canRead_of_openOn opened before, passed earlier among]
    rfl

/-- Something is in the way exactly if the word that is tried fails for a cause that concerns the
whole process. -/
theorem barrier?_eq_some_iff (opened : openOn machine pid = .ok process) :
    process.barrier? machine earlierReads = some cause <->
      ∃ region code, Tries process.regions region ∧
        machine.readMemory pid earlierReads region.base 8 = .error code ∧
        Bars pid code cause := by
  have own := pid_of_openOn opened
  unfold barrier?
  rw [Option.bind_eq_some_iff, own]
  simp only [probed?_eq_some_iff_tries opened, probeLength]
  refine exists_congr fun region => ?_
  cases machine.readMemory pid earlierReads region.base 8 with
  | ok bytes => simp
  | error code => simp [accessError?_eq_some_iff]

/-- A process that is opened, but not for reading, was read once. -/
theorem probeCount_of_barred (opened : openOn machine pid = .ok process)
    (barred : openReadable machine pid earlierReads = .error cause) :
    probeCount machine pid = 1 := by
  rw [openReadable_of_openOn opened] at barred
  unfold probeCount
  rw [opened]
  cases tried : process.probed? with
  | some region =>
      dsimp only
      rw [tried]
      rfl
  | none =>
      unfold barrier? at barred
      rw [tried] at barred
      cases barred

end LiveProcess

/-! ## What is told -/

/-- A text has the line of a search that found nothing. -/
def ReportsNoMatch (text : String) : Prop :=
  "No matches found".toList <:+: text.toList

theorem not_reportsNoMatch {text : String} (absent : 'N' ∉ text.toList) :
    ¬ReportsNoMatch text := fun reports => absent (reports.subset (by decide))

/-- What the program shows before it searches. -/
def Program.opening (quiet : Bool) : String :=
  if quiet then "" else { Banner.standard with coloured := false }.text ++ "\n"

theorem Program.notMem_opening (quiet : Bool) : 'N' ∉ (opening quiet).toList := by
  cases quiet <;> decide +kernel

section Barred

variable {machine : Machine} {pid : UInt32} {code : Int} {cause : MemoryError}
  {trace : Trace}

theorem Bars.notMem_message (bars : Bars pid code cause) : 'N' ∉ cause.message.toList := by
  have number : 'N' ∉ (toString pid.toNat).toList :=
    fun member => absurd (Text.isDigit_of_mem_toString member) (by decide)
  -- The messages have the number of the process in the middle.
  have framed : forall front back : String, 'N' ∉ front.toList -> 'N' ∉ back.toList ->
      'N' ∉ (front ++ toString pid.toNat ++ back).toList := fun front back before behind =>
    Text.notMem_toList_append.mpr ⟨Text.notMem_toList_append.mpr ⟨before, number⟩, behind⟩
  cases bars with
  | notPermitted =>
      exact Text.notMem_toList_append.mpr ⟨framed _ _ (by decide) (by decide), by decide⟩
  | denied =>
      exact Text.notMem_toList_append.mpr ⟨framed _ _ (by decide) (by decide), by decide⟩
  | gone => exact framed _ _ (by decide) (by decide)
  | uncallable =>
      exact Text.notMem_toList_append.mpr ⟨framed _ _ (by decide) (by decide), by decide⟩

theorem Bars.chain_eq (bars : Bars pid code cause) : cause.chain = [cause.message] := by
  cases bars <;> rfl

/-- The trace behind the read by which it is seen whether a process can be read. -/
def Trace.probed (trace : Trace) (machine : Machine) (pid : UInt32) : Trace :=
  { trace with reads := trace.reads + LiveProcess.probeCount machine pid }

theorem LiveProcess.openReadableIn_of_barred {Cause : Type}
    (barred : openReadable machine pid trace.reads = .error cause) :
    (openReadableIn machine pid : Run Cause _) trace =
      (.ok (.error cause), trace.probed machine pid) := by
  unfold openReadableIn
  rw [barred]
  rfl

variable (barred : LiveProcess.openReadable machine pid trace.reads = .error cause)

include barred

/-- A search through the shell goes no further than opening the process. -/
theorem Shell.execute_scan_of_barred {shell : Shell} (on : shell.machine = machine)
    (pattern : List UInt8) :
    shell.execute (.scan pattern) { pid := some pid } trace = talk (do
      Run.writeLine ("Failed opening the process. " ++ cause.message)
      Run.writeLine (separator ++ "\n")) { pid := some pid } (trace.probed machine pid) := by
  have stops : shell.dispatch pid (.scan pattern) trace =
      (.error (.failure (.opening cause)), trace.probed machine pid) := by
    change shell.scan pid pattern trace = _
    unfold scan
    rw [on, Run.bind_of_ok (LiveProcess.openReadableIn_of_barred barred)]
    rfl
  have attempted : (Run.attempt (shell.dispatch pid (.scan pattern)) : Run IoError _) trace =
      (.ok (.error (.opening cause)), trace.probed machine pid) := by
    unfold Run.attempt
    rw [stops]
  have performs : shell.perform pid (.scan pattern) trace = (do
      Run.writeLine ("Failed opening the process. " ++ cause.message)
      Run.writeLine (separator ++ "\n")) (trace.probed machine pid) := by
    unfold perform
    rw [Run.bind_of_ok attempted]
    rfl
  unfold talk
  rw [<- performs]
  rfl

theorem Program.scan_of_barred {surroundings : Surroundings}
    (on : surroundings.machine = machine) {source : CommandLine.PatternSource}
    {pattern : List UInt8} (searches : source.bytes = .ok pattern) (settings : Settings)
    (quiet : Bool) :
    scan surroundings settings quiet pid source trace =
      (.error (.failure (.memory cause)), trace.probed machine pid) := by
  have read : (Run.ofExcept (source.bytes.mapError .pattern) : Run ProgramError _) trace =
      (.ok pattern, trace) := by
    rw [searches]
    rfl
  unfold scan
  rw [Run.bind_of_ok read, on,
    Run.bind_of_ok (LiveProcess.openReadableIn_of_barred barred)]
  rfl

/-- A walk with entropy goes on without it, behind two lines that say so. -/
theorem walkProcessHeaps_of_barred (listsBlocks : Bool) {process : LiveProcess}
    (opened : LiveProcess.openOn machine pid = .ok process) :
    walkProcessHeaps machine pid listsBlocks true trace = (do
      Run.writeLine ("Failed opening the process. " ++ cause.message)
      Run.writeLine "Entropy won't be computed!"
      walkProcessHeaps machine pid listsBlocks false) (trace.probed machine pid) := by
  have began : (Run.ofExcept ((LiveProcess.openOn machine pid).mapError .memory) :
      Run HeapError _) trace = (.ok process, trace) := by
    rw [opened]
    rfl
  unfold walkProcessHeaps
  rw [Run.bind_of_ok began]
  dsimp only
  rw [Run.bind_of_ok (LiveProcess.openReadableIn_of_barred barred), opened]
  rfl

/-- What a walk with entropy adds to the output are two lines, and what it adds without. -/
theorem walkProcessHeaps_adds (listsBlocks : Bool) {process : LiveProcess}
    (opened : LiveProcess.openOn machine pid = .ok process) (takes : trace.out.TakesAll) :
    ∃ outcome plain noticed added,
      walkProcessHeaps machine pid listsBlocks false trace = (outcome, plain) ∧
      walkProcessHeaps machine pid listsBlocks true trace = (outcome, noticed) ∧
      plain.out.text = trace.out.text ++ added ∧
      noticed.out.text = trace.out.text ++ ("Failed opening the process. " ++ cause.message ++
        "\n" ++ ("Entropy won't be computed!\n" ++ added)) := by
  have recites : (walkProcessHeaps machine pid listsBlocks false).Recites Run.IsRefusal :=
    (Run.printing_ofExcept _).recites.bind fun process =>
      HeapListing.recites_walk ((LiveHeaps.ofProcess process).listing (process.target machine))
        listsBlocks none
  -- Without contents, a walk takes no notice of the read that came before it.
  have unaware : (walkProcessHeaps machine pid listsBlocks false).Unaware :=
    (Run.printing_ofExcept _).unaware.bind fun _ => HeapListing.unaware_walk _ listsBlocks
  rcases recites.of_takesAll trace with ⟨outcome, later, added, adds⟩
  rcases adds trace.out takes with ⟨sink, ran, -, written⟩
  rcases @Run.writeLine_of_takesAll HeapError _ (trace.probed machine pid) _ takes
    ("Failed opening the process. " ++ cause.message) with ⟨first, said, stays, one⟩
  rcases @Run.writeLine_of_takesAll HeapError _ (trace.probed machine pid) _ stays
    "Entropy won't be computed!" with ⟨second, told, goesOn, two⟩
  rcases adds second goesOn with ⟨last, walked, -, rest⟩
  have probed := (unaware trace.diagnostics (trace.probed machine pid).reads).of_eq walked
  refine ⟨outcome, { later with out := sink }, _, added, ran,
    (walkProcessHeaps_of_barred barred listsBlocks opened).trans
      ((Run.bind_of_ok said).trans ((Run.bind_of_ok told).trans probed)), written, ?_⟩
  change last.text = _
  rw [rest, two, one]
  simp only [String.append_assoc]
  rfl

end Barred

/-- The program shows nothing else, and ends with the cause, whoever reads its arguments and its
settings file. -/
theorem Program.runWith_of_barred {machine : Machine} {pid : UInt32} {code : Int}
    {cause : MemoryError} (barred : LiveProcess.openReadable machine pid 0 = .error cause)
    {libraries : Libraries} {surroundings : Surroundings}
    (bars : Bars pid code cause) (on : surroundings.machine = machine)
    {arguments : List String} {invocation : CommandLine.Invocation}
    {source : CommandLine.PatternSource} {settings : Settings} {pattern : List UInt8}
    (asked : libraries.readArguments arguments = .ok invocation)
    (scans : invocation.request = some (.scan pid source))
    (settled : invocation.settingsIn libraries.settingsFormat
      (Settings.standard surroundings.hardwareThreads) surroundings.fileContents = .ok settings)
    (searches : source.bytes = .ok pattern) :
    runWith libraries surroundings arguments =
      ⟨1, opening invocation.quiet, "[!] " ++ cause.message ++ "\n"⟩ := by
  have performs (quiet : Bool) (trace : Trace) (fresh : trace.reads = 0) :
      perform surroundings settings quiet invocation.request trace =
        (.error (.failure (.memory cause)), trace.probed machine pid) := by
    rw [scans]
    exact scan_of_barred (fresh ▸ barred) on searches settings quiet
  have acts : ∃ sink : Sink, act libraries.settingsFormat surroundings invocation {} =
      (.error (.failure (.memory cause)), { out := sink : Trace }.probed machine pid) ∧
        sink.text = opening invocation.quiet := by
    have begun : (Run.ofExcept ((Except.ok settings).mapError ProgramError.settings) :
        Run ProgramError Settings) {} = (.ok settings, {}) := rfl
    unfold act
    rw [settled, Run.bind_of_ok begun]
    dsimp only
    unfold opening
    cases invocation.quiet with
    | true => exact ⟨_, performs true {} rfl, rfl⟩
    | false => exact ⟨_, performs false { out := _ } rfl, String.empty_append⟩
  rcases acts with ⟨sink, ended, shown⟩
  unfold runWith
  rw [asked]
  dsimp only
  rw [ended]
  dsimp only [ProgramError.chain]
  rw [bars.chain_eq]
  change Outcome.mk 1 sink.text _ = _
  rw [shown]
  rfl

/-- Every read of a process fails for a cause that concerns the whole process. -/
def Machine.Unreadable (machine : Machine) (pid : UInt32) : Prop :=
  forall earlierReads address length, length ≠ 0 ->
    ∃ code cause, machine.readMemory pid earlierReads address length = .error code ∧
      Bars pid code cause

/-- A process of which some mapping may be read and nothing can be is not opened for reading. -/
theorem LiveProcess.exists_barrier {machine : Machine} {pid : UInt32} {process : LiveProcess}
    (opened : openOn machine pid = .ok process) (unreadable : machine.Unreadable pid)
    (earlierReads : Nat)
    (readable : ∃ mapping, mapping ∈ process.mappings ∧ mapping.protection.read = true) :
    ∃ code cause, Bars pid code cause ∧
      openReadable machine pid earlierReads = .error cause := by
  rcases readable with ⟨mapping, among, reads⟩
  have member : mapping.region process.images ∈ process.regions := by
    rw [regions_of_openOn opened]
    exact (Mapping.regions_perm process.mappings).mem_iff.mpr (List.mem_map_of_mem among)
  have tried : process.probed?.isSome = true := by
    refine List.find?_isSome.mpr ⟨_, member, ?_⟩
    rw [canRead_of_openOn opened member, Mapping.region_protection]
    exact reads
  rcases Option.isSome_iff_exists.mp tried with ⟨region, first⟩
  rcases unreadable earlierReads region.base 8 (by decide) with ⟨code, cause, fails, bars⟩
  have barrier := (barrier?_eq_some_iff opened).mpr
    ⟨region, code, (probed?_eq_some_iff_tries opened).mp first, fails, bars⟩
  refine ⟨code, cause, bars, ?_⟩
  rw [openReadable_of_openOn opened, barrier]
  rfl

/-- When opening a process for reading fails, after however many reads: exactly if its first
region that may be read is out of reach for a cause that concerns the whole process.  Otherwise it
is opened as for any other purpose.  A process of which nothing can be read is never said to hold
no matches: a search tells the cause, from the shell and from the command line, and a walk of its
heaps comes to the same with entropy as without, behind two lines that say so. -/
theorem unreadable_processes_are_told {machine : Machine} {pid : UInt32} {listing : List Char}
    {mappings : List Mapping} (maps : machine.readText (Machine.mapsPath pid) = .ok listing)
    (parsed : Mapping.ofListing listing = .ok mappings) :
    ∃ process, LiveProcess.openOn machine pid = .ok process ∧
      process.regions.Perm (mappings.map (Mapping.region process.images)) ∧
      (process.regions.Pairwise fun region later => region.base ≤ later.base) ∧
      (forall earlierReads cause,
        LiveProcess.openReadable machine pid earlierReads = .error cause <->
        ∃ region code, Tries process.regions region ∧
          machine.readMemory pid earlierReads region.base 8 = .error code ∧
          Bars pid code cause) ∧
      (forall earlierReads,
        (forall cause, LiveProcess.openReadable machine pid earlierReads ≠ .error cause) ->
        LiveProcess.openReadable machine pid earlierReads = .ok process) ∧
      (machine.Unreadable pid ->
        (∃ mapping, mapping ∈ mappings ∧ mapping.protection.read = true) ->
        forall earlierReads, ∃ code cause, Bars pid code cause ∧
          LiveProcess.openReadable machine pid earlierReads = .error cause ∧
          (forall shell : Shell, shell.machine = machine ->
            forall (pattern : List UInt8) (trace : Trace), trace.reads = earlierReads ->
            shell.execute (.scan pattern) { pid := some pid } trace = Shell.talk (do
              Run.writeLine ("Failed opening the process. " ++ cause.message)
              Run.writeLine (Shell.separator ++ "\n")) { pid := some pid }
                { trace with reads := earlierReads + 1 } ∧
            ¬ReportsNoMatch ("Failed opening the process. " ++ cause.message ++ "\n" ++
              (Shell.separator ++ "\n\n"))) ∧
          (earlierReads = 0 ->
            forall (surroundings : Surroundings) (arguments : List String)
            (invocation : CommandLine.Invocation) (source : CommandLine.PatternSource)
            (settings : Settings) (pattern : List UInt8), surroundings.machine = machine ->
            CommandLine.read arguments = .ok invocation ->
            invocation.request = some (.scan pid source) ->
            invocation.settings (Settings.standard surroundings.hardwareThreads)
              surroundings.fileContents = .ok settings ->
            source.bytes = .ok pattern ->
            Program.run surroundings arguments =
              ⟨1, Program.opening invocation.quiet, "[!] " ++ cause.message ++ "\n"⟩ ∧
            ¬ReportsNoMatch (Program.opening invocation.quiet) ∧
            ¬ReportsNoMatch ("[!] " ++ cause.message ++ "\n")) ∧
          forall (listsBlocks : Bool) (trace : Trace), trace.reads = earlierReads ->
            trace.out.TakesAll ->
            ∃ outcome plain noticed added,
              walkProcessHeaps machine pid listsBlocks false trace = (outcome, plain) ∧
              walkProcessHeaps machine pid listsBlocks true trace = (outcome, noticed) ∧
              plain.out.text = trace.out.text ++ added ∧
              noticed.out.text = trace.out.text ++ ("Failed opening the process. " ++
                cause.message ++ "\n" ++ ("Entropy won't be computed!\n" ++ added))) := by
  have opened : LiveProcess.openOn machine pid = .ok (LiveProcess.ofMappings pid mappings) :=
    LiveProcess.openOn_eq_ok_iff.mpr ⟨listing, mappings, maps, parsed, rfl⟩
  refine ⟨_, opened, Mapping.regions_perm mappings, Address.pairwise_mergeSort Region.base _,
    fun earlierReads cause => ?_, fun earlierReads opens => ?_,
    fun unreadable readable earlierReads => ?_⟩
  · rw [<- LiveProcess.barrier?_eq_some_iff opened, LiveProcess.openReadable_of_openOn opened]
    cases (LiveProcess.ofMappings pid mappings).barrier? machine earlierReads <;> simp
  · rw [LiveProcess.openReadable_of_openOn opened] at opens ⊢
    cases barrier : (LiveProcess.ofMappings pid mappings).barrier? machine earlierReads with
    | none => rfl
    | some cause =>
        rw [barrier] at opens
        exact absurd rfl (opens cause)
  · rcases LiveProcess.exists_barrier opened unreadable earlierReads readable with
      ⟨code, cause, bars, barred⟩
    have absent := bars.notMem_message
    have count := LiveProcess.probeCount_of_barred opened barred
    refine ⟨code, cause, bars, barred, ?_, ?_, ?_⟩
    · rintro shell on pattern trace rfl
      refine ⟨?_, ?_⟩
      · have stops := Shell.execute_scan_of_barred barred on pattern
        unfold Trace.probed at stops
        rw [count] at stops
        exact stops
      · exact not_reportsNoMatch (Text.notMem_toList_append.mpr
          ⟨Text.notMem_toList_append.mpr
            ⟨Text.notMem_toList_append.mpr ⟨by decide, absent⟩, by decide⟩, by decide⟩)
    · rintro rfl surroundings arguments invocation source settings pattern on asked scans
        settled searches
      refine ⟨@Program.runWith_of_barred _ _ _ _ barred .standard _ bars on _ _ _ _ _ asked scans
        settled searches, ?_, ?_⟩
      · exact not_reportsNoMatch (Program.notMem_opening invocation.quiet)
      · exact not_reportsNoMatch (Text.notMem_toList_append.mpr
          ⟨Text.notMem_toList_append.mpr ⟨by decide, absent⟩, by decide⟩)
    · rintro listsBlocks trace rfl takes
      exact walkProcessHeaps_adds barred listsBlocks opened takes

/-- The listing of one page that may be read. -/
def sealedListing : List Char :=
  "1000-2000 r--p 00000000 00:00 0".toList

/-- A machine with a process whose mappings are listed and whose memory is out of reach. -/
def sealedMachine : StagedMachine :=
  { files := [("/proc/7/maps", Text.utf8Bytes sealedListing)]
    memory := [(7, .refused 1)] }

/-- A search of that process ends with the cause. -/
theorem unreadable_processes_are_told_of_sealed :
    LiveProcess.openReadable sealedMachine.machine 7 = .error (.accessDenied 7 1) ∧
    Program.run ⟨sealedMachine.machine, 4, fun _ => .error (.os 2), [], 4096⟩
        ["scan", "--pid", "7", "--text", "a", "--quiet"] =
      ⟨1, "", "[!] Access to process 7 denied. Error code: 1\n"⟩ := by
  have maps : sealedMachine.machine.readText (Machine.mapsPath 7) = .ok sealedListing := by
    decide +kernel
  have parsed : Mapping.ofListing sealedListing =
      .ok [⟨0x1000, 0x2000, Protection.readable, 0, 0, none⟩] := by
    decide +kernel
  have unreadable : sealedMachine.machine.Unreadable 7 :=
    fun _ _ _ _ => ⟨1, _, rfl, .notPermitted⟩
  rcases unreadable_processes_are_told maps parsed with ⟨process, -, -, -, fails, -, told⟩
  rcases told unreadable ⟨_, List.mem_singleton_self _, rfl⟩ 0 with
    ⟨code, cause, bars, barred, -, searches, -⟩
  rcases (fails 0 cause).mp barred with ⟨region, other, -, refused, barring⟩
  have same : other = 1 := by
    cases refused
    rfl
  subst same
  cases barring
  refine ⟨barred, ?_⟩
  exact (searches rfl ⟨sealedMachine.machine, 4, fun _ => .error (.os 2), [], 4096⟩ _
    { request := some (.scan 7 { text := some "a" }), quiet := true } _ (Settings.standard 4) _ rfl
    (by decide +kernel) rfl (by decide +kernel) rfl).1

end MemoryProbe
