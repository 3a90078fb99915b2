import Mathlib
import MemoryProbe.Machine.Staged
import MemoryProbe.Proofs.Kernel.Naming
import MemoryProbe.Proofs.Kernel.Viewing

namespace MemoryProbe

/-!
Processes and tasks that come and go while they are listed.  A listing has an entry for each name
whose status can be read, by rising number, in whatever order the directory has the names.  A
status that cannot be read takes its own entry away and leaves all others as they are.
-/

/-! ## Rising listings -/

/-- A directory has no name twice, and no two names in it stand for the same number. -/
structure Numbered (names : List String) (marks : String -> UInt32 -> Prop) : Prop where
  nodup : names.Nodup
  eq_of_marks : forall {name other number}, name ∈ names -> other ∈ names ->
    marks name number -> marks other number -> name = other

theorem Numbered.of_perm {names others : List String} {marks later : String -> UInt32 -> Prop}
    (numbered : Numbered names marks) (perm : others.Perm names)
    (marked : forall {name number}, name ∈ names -> later name number -> marks name number) :
    Numbered others later where
  nodup := perm.nodup_iff.mpr numbered.nodup
  eq_of_marks here there first second :=
    have among := perm.mem_iff.mp here
    have within := perm.mem_iff.mp there
    numbered.eq_of_marks among within (marked among first) (marked within second)

section Listing

variable {Entry : Type} {key : Entry -> UInt32} {marks : String -> UInt32 -> Prop}
  {read reread : String -> Except Fault (Option Entry)} {names others : List String}
  {listing later : List Entry}

/-- A listing has the entries that can be read of some names, by rising key. -/
structure Lists (key : Entry -> UInt32) (read : String -> Except Fault (Option Entry))
    (names : List String) (listing : List Entry) : Prop where
  mem_iff : forall entry, entry ∈ listing <-> ∃ name, name ∈ names ∧ read name = .ok (some entry)
  rising : listing.Pairwise fun entry later => key entry < key later

/-- Sort entries by their keys; those of equal key stay in their order. -/
def sortBy (key : Entry -> UInt32) (entries : List Entry) : List Entry :=
  entries.mergeSort fun left right => decide (key left ≤ key right)

theorem pairwise_sortBy (entries : List Entry) :
    (sortBy key entries).Pairwise fun entry later => key entry ≤ key later := by
  have sorted := @List.pairwise_mergeSort Entry (fun left right => decide (key left ≤ key right))
    (fun left middle right first second =>
      decide_eq_true (UInt32.le_trans (of_decide_eq_true first) (of_decide_eq_true second)))
    (fun left right => by
      rw [Bool.or_eq_true, decide_eq_true_eq, decide_eq_true_eq]
      exact UInt32.le_total (key left) (key right)) entries
  exact sorted.imp fun order => of_decide_eq_true order

/-- What is made of sorted items is sorted by the keys of what is made. -/
theorem map_sortBy {Item : Type} (make : Item -> Entry) (items : List Item) :
    (sortBy (fun item => key (make item)) items).map make = sortBy key (items.map make) :=
  List.map_mergeSort fun _ _ _ _ => rfl

/-- Where all names have an answer, sorting what was found makes a listing of them. -/
theorem lists_sortBy {answers : List (Option Entry)} (numbered : Numbered names marks)
    (keyed : forall {name entry}, read name = .ok (some entry) -> marks name (key entry))
    (answered : names.mapM read = .ok answers) :
    Lists key read names (sortBy key (answers.filterMap id)) := by
  have perm : (sortBy key (answers.filterMap id)).Perm (answers.filterMap id) :=
    List.mergeSort_perm _ _
  constructor
  · intro entry
    rw [perm.mem_iff, mem_filterMap_of_mapM answered]
  · have apart : (names.map read).Pairwise fun first second => forall entry other,
        first = .ok (some entry) -> second = .ok (some other) -> key entry ≠ key other := by
      refine List.pairwise_map.mpr (numbered.nodup.imp_of_mem fun here there different => ?_)
      intro entry other first second same
      exact different (numbered.eq_of_marks here there (keyed first) (same ▸ keyed second))
    rw [mapM_eq_ok_iff.mp answered, List.pairwise_map] at apart
    have distinct : (answers.filterMap id).Pairwise fun entry other => key entry ≠ key other := by
      refine List.pairwise_filterMap.mpr (apart.imp fun {first second} differ => ?_)
      intro entry here other there
      exact differ entry other (congrArg Except.ok here) (congrArg Except.ok there)
    refine ((distinct.perm perm.symm fun differ => differ.symm).and (pairwise_sortBy _)).imp ?_
    exact fun both => UInt32.lt_of_le_of_ne both.2 both.1

/-- There is one listing of what can be read. -/
theorem Lists.eq (first : Lists key read names listing) (second : Lists key read names later) :
    later = listing := by
  have apart : Std.Asymm fun entry other : Entry => key entry < key other :=
    ⟨fun _ _ less => UInt32.lt_asymm less⟩
  exact second.rising.eq_of_mem_iff first.rising fun entry =>
    (second.mem_iff entry).trans (first.mem_iff entry).symm

/-- The order of the names makes no difference to a listing. -/
theorem Lists.perm (lists : Lists key reread others later) (perm : others.Perm names)
    (same : forall name, name ∈ names -> reread name = read name) :
    Lists key read names later where
  rising := lists.rising
  mem_iff entry := by
    rw [lists.mem_iff]
    refine exists_congr fun name => ?_
    rw [perm.mem_iff]
    exact and_congr_right fun member => by rw [same name member]

/-- Where one name can no longer be read, its entry is gone and all others are there. -/
theorem Lists.lose {gone : String} {number : UInt32} (numbered : Numbered names marks)
    (keyed : forall {name entry}, read name = .ok (some entry) -> marks name (key entry))
    (lists : Lists key read names listing) (member : gone ∈ names) (marked : marks gone number)
    (sole : forall entry, read gone = .ok (some entry) -> key entry = number)
    (lost : forall entry, reread gone ≠ .ok (some entry))
    (same : forall name, name ∈ names -> name ≠ gone -> reread name = read name) :
    Lists key reread names (listing.filter fun entry => key entry != number) where
  rising := lists.rising.filter _
  mem_iff entry := by
    rw [List.mem_filter, lists.mem_iff, bne_iff_ne]
    constructor
    · rintro ⟨⟨name, among, stands⟩, other⟩
      have apart : name ≠ gone := fun equal => other (sole entry (equal ▸ stands))
      exact ⟨name, among, (same name among apart).trans stands⟩
    · rintro ⟨name, among, stands⟩
      have apart : name ≠ gone := fun equal => lost entry (equal ▸ stands)
      rw [same name among apart] at stands
      refine ⟨⟨name, among, stands⟩, fun equal => apart ?_⟩
      exact numbered.eq_of_marks among member (keyed stands) (equal ▸ marked)

end Listing

/-! ## Processes -/

/-- How a process with a number is listed by its status. -/
def StatLine.process (line : StatLine) (pid : UInt32) : ProcessEntry where
  pid := pid
  name := line.name
  parentPid := line.parentPid
  threads := line.threads
  basePriority := line.priority

/-- How a task of a process is listed by its status and its stack. -/
def StatLine.thread (line : StatLine) (owner : UInt32) (stack : Option StackInfo) :
    ThreadEntry where
  id := line.pid
  owner := owner
  basePriority := line.priority
  deltaPriority := line.nice
  stack := stack

namespace Machine

/-- The status in a directory can be read, and is that line. -/
def Tells (machine : Machine) (directory : String) (line : StatLine) : Prop :=
  ∃ text, machine.readText (directory ++ "/stat") = .ok text ∧ StatLine.ofText text = .ok line

/-- Two machines have the same status in a directory. -/
def SameStat (machine other : Machine) (directory : String) : Prop :=
  other.readFile (directory ++ "/stat") = machine.readFile (directory ++ "/stat")

/-- The directory of a task of a process. -/
def taskPath (pid : UInt32) (name : String) : String :=
  taskDirectory pid ++ "/" ++ name

section Stat

variable {machine other : Machine} {directory : String} {line : StatLine}

theorem readStat?_eq_some_iff :
    machine.readStat? directory = .ok (some line) <-> machine.Tells directory line := by
  unfold readStat? Tells
  cases machine.readText (directory ++ "/stat") with
  | error cause => simp
  | ok text =>
      cases read : StatLine.ofText text with
      | ok found => simp [read]
      | error stop => cases stop <;> simp [read]

/-- The status in a directory is told by its file. -/
theorem readStat?_congr
    (same : SameStat machine other directory) :
    other.readStat? directory = machine.readStat? directory := by
  unfold SameStat at same
  unfold readStat? readText
  rw [same]

theorem tells_congr (same : SameStat machine other directory) :
    other.Tells directory line <-> machine.Tells directory line := by
  rw [<- readStat?_eq_some_iff, <- readStat?_eq_some_iff, readStat?_congr same]

/-- A status is one line. -/
theorem Tells.eq {found : StatLine} (told : machine.Tells directory line)
    (again : machine.Tells directory found) : found = line := by
  rw [<- readStat?_eq_some_iff] at told again
  exact Option.some.inj (Except.ok.inj (again.symm.trans told))

end Stat

/-- A name in `/proc` stands for the process with that number. -/
def NamesProcess (name : String) (pid : UInt32) : Prop :=
  Text.natural32? name.toList = some pid

/-- A name in a task directory stands for the task with that number. -/
def NamesTask (machine : Machine) (owner : UInt32) (name : String) (id : UInt32) : Prop :=
  ∃ line, machine.Tells (taskPath owner name) line ∧ line.pid = id

section Processes

variable {machine other : Machine} {names others : List String} {name : String}
  {entry : ProcessEntry}

theorem readProcess?_eq_some_iff :
    machine.readProcess? name = .ok (some entry) <->
      ∃ line, NamesProcess name entry.pid ∧ machine.Tells ("/proc/" ++ name) line ∧
        entry = line.process entry.pid := by
  unfold readProcess? NamesProcess
  simp only [<- readStat?_eq_some_iff]
  rcases machine.exists_readStat? ("/proc/" ++ name) with ⟨line?, read⟩
  rw [read]
  cases Text.natural32? name.toList with
  | none => simp
  | some pid =>
      constructor
      · intro found
        rcases Option.map_eq_some_iff.mp (Except.ok.inj found) with ⟨line, rfl, rfl⟩
        exact ⟨line, rfl, rfl, rfl⟩
      · rintro ⟨line, number, told, made⟩
        rw [Except.ok.inj told, made, Option.some.inj number]
        rfl

/-- What a name stands for is told by its status file. -/
theorem readProcess?_congr
    (same : SameStat machine other ("/proc/" ++ name)) :
    other.readProcess? name = machine.readProcess? name := by
  unfold readProcess?
  rw [readStat?_congr same]

/-- The processes are what can be read of the names in the directory. -/
theorem lists_processes (lists : machine.listDirectory "/proc" = .ok names)
    (numbered : Numbered names NamesProcess) :
    ∃ listing, machine.processes = .ok listing ∧
      Lists ProcessEntry.pid machine.readProcess? names listing := by
  rcases exists_mapM fun name (_ : name ∈ names) => machine.exists_readProcess? name with
    ⟨answers, read⟩
  exact ⟨_, processes_eq lists read, lists_sortBy numbered natural32?_of_readProcess? read⟩

end Processes

/-! ## Tasks -/

/-- Two machines have the same files about a task. -/
structure SameTask (machine other : Machine) (directory : String) : Prop where
  stat : SameStat machine other directory
  syscall : other.readFile (directory ++ "/syscall") = machine.readFile (directory ++ "/syscall")

section Tasks

variable {machine other : Machine} {process : LiveProcess} {pid : UInt32}
  {names others : List String} {name directory : String} {entry : ThreadEntry}

/-- Looking for a stack comes to an end, whatever the system call line says. -/
theorem exists_stack? (machine : Machine) (process : LiveProcess) (directory : String) :
    ∃ stack, machine.stack? process directory = .ok stack := by
  unfold stack?
  split
  · exact ⟨none, rfl⟩
  · rename_i pointer _
    rcases exists_queryRegions process.regions pointer with ⟨region?, answered⟩
    rw [answered]
    exact ⟨_, rfl⟩

/-- The stack of a task is told by its system call file. -/
theorem stack?_congr
    (same : other.readFile (directory ++ "/syscall") =
      machine.readFile (directory ++ "/syscall")) :
    other.stack? process directory = machine.stack? process directory := by
  unfold stack? readText
  rw [same]

/-- A task is shown by its status and its stack. -/
theorem readThread?_of_read {line? : Option StatLine} {stack : Option StackInfo}
    (read : machine.readStat? (taskPath process.pid name) = .ok line?)
    (found : machine.stack? process (taskPath process.pid name) = .ok stack) :
    machine.readThread? process name =
      .ok (line?.map fun line => line.thread process.pid stack) := by
  unfold taskPath at read found
  unfold readThread?
  dsimp only
  rw [read, found]
  cases line? <;> rfl

theorem exists_readThread? (machine : Machine) (process : LiveProcess) (name : String) :
    ∃ shown?, machine.readThread? process name = .ok shown? := by
  rcases machine.exists_readStat? (taskPath process.pid name) with ⟨line?, read⟩
  rcases machine.exists_stack? process (taskPath process.pid name) with ⟨stack, found⟩
  exact ⟨_, readThread?_of_read read found⟩

theorem readThread?_eq_some_iff :
    machine.readThread? process name = .ok (some entry) <->
      ∃ line stack, machine.Tells (taskPath process.pid name) line ∧
        machine.stack? process (taskPath process.pid name) = .ok stack ∧
        entry = line.thread process.pid stack := by
  rcases machine.exists_readStat? (taskPath process.pid name) with ⟨line?, read⟩
  rcases machine.exists_stack? process (taskPath process.pid name) with ⟨stack, found⟩
  rw [readThread?_of_read read found, Except.ok.injEq, Option.map_eq_some_iff]
  simp only [<- readStat?_eq_some_iff]
  rw [read, found]
  constructor
  · rintro ⟨line, rfl, rfl⟩
    exact ⟨line, stack, rfl, rfl, rfl⟩
  · rintro ⟨line, held, here, there, rfl⟩
    rw [Except.ok.inj there]
    exact ⟨line, Except.ok.inj here, rfl⟩

theorem readThread?_congr (same : SameTask machine other (taskPath process.pid name)) :
    other.readThread? process name = machine.readThread? process name := by
  unfold taskPath at same
  unfold readThread?
  dsimp only
  rw [readStat?_congr same.stat, stack?_congr same.syscall]

theorem namesTask_of_readThread?
    (read : machine.readThread? process name = .ok (some entry)) :
    machine.NamesTask process.pid name entry.id := by
  rcases readThread?_eq_some_iff.mp read with ⟨line, stack, told, -, rfl⟩
  exact ⟨line, told, rfl⟩

/-- A name stands for one task. -/
theorem NamesTask.eq {id number : UInt32} (first : machine.NamesTask pid name id)
    (second : machine.NamesTask pid name number) : id = number := by
  rcases first with ⟨line, told, rfl⟩
  rcases second with ⟨found, again, rfl⟩
  rw [told.eq again]

/-- Names stand for different tasks as long as the statuses that are told stay as they were. -/
theorem numbered_of_perm (numbered : Numbered names (machine.NamesTask pid))
    (perm : others.Perm names)
    (same : forall name line, name ∈ names -> other.Tells (taskPath pid name) line ->
      SameStat machine other (taskPath pid name)) : Numbered others (other.NamesTask pid) := by
  refine numbered.of_perm perm fun {name number} among => ?_
  rintro ⟨line, told, marked⟩
  exact ⟨line, (tells_congr (same name line among told)).mp told, marked⟩

/-- The listing of the threads is what was found for the names, sorted. -/
theorem threads_of_answers {answers : List (Option ThreadEntry)}
    (opened : LiveProcess.openOn machine pid = .ok process)
    (lists : machine.listDirectory (taskDirectory pid) = .ok names)
    (read : names.mapM (machine.readThread? process) = .ok answers) :
    machine.threads pid = .ok (sortBy ThreadEntry.id (answers.filterMap id)) := by
  unfold threads
  rw [opened, lists]
  simp only [Except.mapError, bind, Except.bind, read]
  rfl

/-- The threads are what can be read of the names in the task directory. -/
theorem lists_threads (opened : LiveProcess.openOn machine pid = .ok process)
    (lists : machine.listDirectory (taskDirectory pid) = .ok names)
    (numbered : Numbered names (machine.NamesTask pid)) :
    ∃ listing, machine.threads pid = .ok listing ∧
      Lists ThreadEntry.id (machine.readThread? process) names listing := by
  rcases exists_mapM fun name (_ : name ∈ names) => machine.exists_readThread? process name with
    ⟨answers, read⟩
  have own := LiveProcess.pid_of_openOn opened
  subst own
  exact ⟨_, threads_of_answers opened lists read,
    lists_sortBy numbered namesTask_of_readThread? read⟩

end Tasks

/-- What processes and tasks are listed.  A process is listed for each name in `/proc` that is a
number and whose status can be read, by rising number; a task likewise for each name in the task
directory.  The order of the directory makes no difference.  When one status cannot be read any
more, its own entry is gone, and there is no other change. -/
theorem listings_skip_unreadable (machine : Machine) :
    (forall (names : List String), machine.listDirectory "/proc" = .ok names ->
      Numbered names NamesProcess ->
      ∃ listing, machine.processes = .ok listing ∧
        (listing.Pairwise fun entry later => entry.pid < later.pid) ∧
        (forall entry, entry ∈ listing <->
          ∃ name line, name ∈ names ∧ NamesProcess name entry.pid ∧
            machine.Tells ("/proc/" ++ name) line ∧ entry = line.process entry.pid) ∧
        forall (other : Machine) (others : List String),
          other.listDirectory "/proc" = .ok others -> others.Perm names ->
          ((forall name, name ∈ names -> SameStat machine other ("/proc/" ++ name)) ->
            other.processes = .ok listing) ∧
          forall gone pid, gone ∈ names -> NamesProcess gone pid ->
            (forall line, ¬other.Tells ("/proc/" ++ gone) line) ->
            (forall name, name ∈ names -> name ≠ gone ->
              SameStat machine other ("/proc/" ++ name)) ->
            other.processes = .ok (listing.filter fun entry => entry.pid != pid)) ∧
    forall (pid : UInt32) (process : LiveProcess) (names : List String),
      LiveProcess.openOn machine pid = .ok process ->
      machine.listDirectory (taskDirectory pid) = .ok names ->
      Numbered names (machine.NamesTask pid) ->
      ∃ (listing : List ThreadEntry) (stack : String -> Option StackInfo),
        machine.threads pid = .ok listing ∧
        (forall name, machine.stack? process (taskPath pid name) = .ok (stack name)) ∧
        (listing.Pairwise fun entry later => entry.id < later.id) ∧
        (forall entry, entry ∈ listing <->
          ∃ name line, name ∈ names ∧ machine.Tells (taskPath pid name) line ∧
            entry = line.thread pid (stack name)) ∧
        forall (other : Machine) (others : List String),
          LiveProcess.openOn other pid = .ok process ->
          other.listDirectory (taskDirectory pid) = .ok others -> others.Perm names ->
          ((forall name, name ∈ names -> SameTask machine other (taskPath pid name)) ->
            other.threads pid = .ok listing) ∧
          forall gone id, gone ∈ names -> machine.NamesTask pid gone id ->
            (forall line, ¬other.Tells (taskPath pid gone) line) ->
            (forall name, name ∈ names -> name ≠ gone ->
              SameTask machine other (taskPath pid name)) ->
            other.threads pid = .ok (listing.filter fun entry => entry.id != id) := by
  constructor
  · intro names lists numbered
    rcases lists_processes lists numbered with ⟨listing, listed, entries⟩
    refine ⟨listing, listed, entries.rising, fun entry => ?_, fun other others relists perm => ?_⟩
    · rw [entries.mem_iff]
      simp only [readProcess?_eq_some_iff, exists_and_left]
    · have renumbered := numbered.of_perm perm fun {name number} _ marked => marked
      rcases lists_processes relists renumbered with ⟨later, relisted, stands⟩
      refine ⟨fun same => ?_, fun gone pid member marked lost same => ?_⟩
      · have whole := stands.perm perm fun name among => readProcess?_congr (same name among)
        rw [relisted, entries.eq whole]
      · have less := entries.lose numbered natural32?_of_readProcess? member marked
          (fun entry read => Option.some.inj
            ((natural32?_of_readProcess? read).symm.trans marked))
          (fun entry read => by
            rcases readProcess?_eq_some_iff.mp read with ⟨line, -, told, -⟩
            exact lost line told)
          (fun name among apart => readProcess?_congr (same name among apart))
        rw [relisted, less.eq (stands.perm perm fun name _ => rfl)]
  · intro pid process names opened lists numbered
    have own := LiveProcess.pid_of_openOn opened
    subst own
    rcases lists_threads opened lists numbered with ⟨listing, listed, entries⟩
    choose stack found using fun name => machine.exists_stack? process (taskPath process.pid name)
    refine ⟨listing, stack, listed, found, entries.rising, fun entry => ?_,
      fun other others reopened relists perm =>
        ⟨fun same => ?_, fun gone id member marked lost same => ?_⟩⟩
    · rw [entries.mem_iff]
      simp only [readThread?_eq_some_iff, found, Except.ok.injEq, exists_eq_left', exists_and_left]
    · have renumbered := numbered_of_perm numbered perm fun name _ among _ => (same name among).stat
      rcases lists_threads reopened relists renumbered with ⟨later, relisted, stands⟩
      have whole := stands.perm perm fun name among => readThread?_congr (same name among)
      rw [relisted, entries.eq whole]
    · have renumbered := numbered_of_perm numbered perm fun name line among told =>
        (same name among fun equal => lost line (equal ▸ told)).stat
      rcases lists_threads reopened relists renumbered with ⟨later, relisted, stands⟩
      have less := entries.lose numbered namesTask_of_readThread? member marked
        (fun entry read => (namesTask_of_readThread? read).eq marked)
        (fun entry read => by
          rcases readThread?_eq_some_iff.mp read with ⟨line, stack, told, -⟩
          exact lost line told)
        (fun name among apart => readThread?_congr (same name among apart))
      rw [relisted, less.eq (stands.perm perm fun name _ => rfl)]

/-- A machine with two processes, the first of which has two tasks; some files are out of
reach. -/
def crowdMachine (barred : List String) : StagedMachine :=
  let status := fun number =>
    Text.utf8Bytes (number ++ " (a) S 1 0 0 0 0 0 0 0 0 0 0 0 0 0 20 0 1").toList
  { files := [("/proc/9/stat", status "9"), ("/proc/version", []), ("/proc/7/stat", status "7"),
      ("/proc/7/maps", []), ("/proc/7/task/8/stat", status "8"),
      ("/proc/7/task/7/stat", status "7")]
    errors := barred.map fun path => (path, 13) }

/-- Its process maps nothing. -/
theorem openOn_crowdMachine : forall barred, barred ∈ [[], ["/proc/7/task/8/stat"]] ->
    LiveProcess.openOn (crowdMachine barred).machine 7 = .ok (LiveProcess.ofMappings 7 []) := by
  intro barred among
  have maps : (crowdMachine barred).machine.readText (mapsPath 7) = .ok [] := by
    revert barred
    decide +kernel
  exact LiveProcess.openOn_eq_ok_iff.mpr ⟨[], [], maps, rfl, rfl⟩

/-- The names of its processes and tasks are different numbers. -/
theorem crowdMachine_numbers : forall name, name ∈ ["9", "version", "7", "8"] ->
    forall other, other ∈ ["9", "version", "7", "8"] ->
      Text.natural32? name.toList = Text.natural32? other.toList -> name = other := by
  decide +kernel

theorem numbered_crowdMachine : Numbered ["9", "version", "7"] NamesProcess := by
  have among : ["9", "version", "7"] ⊆ ["9", "version", "7", "8"] := by decide
  exact ⟨by decide, fun {name other number} here there first second =>
    crowdMachine_numbers name (among here) other (among there) (first.trans second.symm)⟩

theorem numbered_crowdMachine_tasks :
    Numbered ["8", "7"] ((crowdMachine []).machine.NamesTask 7) := by
  have told : forall name, name ∈ ["8", "7"] ->
      ((crowdMachine []).machine.readStat? (taskPath 7 name)).toOption.map
        (Option.map StatLine.pid) = some (Text.natural32? name.toList) := by
    decide +kernel
  have marked : forall name id, name ∈ ["8", "7"] ->
      (crowdMachine []).machine.NamesTask 7 name id ->
        Text.natural32? name.toList = some id := by
    rintro name id here ⟨line, tells, rfl⟩
    have read := told name here
    rw [readStat?_eq_some_iff.mpr tells, Except.toOption, Option.map_some, Option.map_some,
      Option.some.injEq] at read
    exact read.symm
  have among : ["8", "7"] ⊆ ["9", "version", "7", "8"] := by decide
  refine ⟨by decide, fun {name other id} here there first second => ?_⟩
  exact crowdMachine_numbers name (among here) other (among there)
    ((marked name id here first).trans (marked other id there second).symm)

/-- The second process and the second task go away, and no others. -/
theorem listings_skip_unreadable_of_crowd :
    ∃ listing tasks, (crowdMachine []).machine.processes = .ok listing ∧
      (∃ entry, entry ∈ listing ∧ entry.pid = 9) ∧
      (crowdMachine ["/proc/9/stat"]).machine.processes =
        .ok (listing.filter fun entry => entry.pid != 9) ∧
      (crowdMachine []).machine.threads 7 = .ok tasks ∧
      (∃ entry, entry ∈ tasks ∧ entry.id = 8) ∧
      (crowdMachine ["/proc/7/task/8/stat"]).machine.threads 7 =
        .ok (tasks.filter fun entry => entry.id != 8) := by
  have seen : (crowdMachine []).machine.Tells "/proc/9" ⟨9, "a", 1, 20, 0, 1⟩ :=
    readStat?_eq_some_iff.mp (by decide +kernel)
  have seenTask : (crowdMachine []).machine.Tells (taskPath 7 "8") ⟨8, "a", 1, 20, 0, 1⟩ :=
    readStat?_eq_some_iff.mp (by decide +kernel)
  rcases (listings_skip_unreadable (crowdMachine []).machine).1 ["9", "version", "7"]
    (by decide +kernel) numbered_crowdMachine with ⟨listing, listed, -, entries, others⟩
  rcases (listings_skip_unreadable (crowdMachine []).machine).2 7 _ ["8", "7"]
    (openOn_crowdMachine [] (by decide)) (by decide +kernel) numbered_crowdMachine_tasks with
    ⟨tasks, stack, shown, -, -, threads, later⟩
  have nine : NamesProcess "9" 9 := by
    unfold NamesProcess
    decide
  refine ⟨listing, tasks, listed, ⟨_, (entries (StatLine.process _ 9)).mpr
    ⟨"9", _, by decide, nine, seen, rfl⟩, rfl⟩, ?_, shown, ⟨_, (threads _).mpr
    ⟨"8", _, by decide, seenTask, rfl⟩, rfl⟩, ?_⟩
  · have lost : (crowdMachine ["/proc/9/stat"]).machine.readStat? ("/proc/" ++ "9") =
        .ok none := by
      decide +kernel
    refine (others (crowdMachine ["/proc/9/stat"]).machine ["9", "version", "7"]
      (by decide +kernel) (List.Perm.refl _)).2 "9" 9 (by decide) nine (fun line tells => ?_) ?_
    · cases lost.symm.trans (readStat?_eq_some_iff.mpr tells)
    · unfold SameStat
      decide +kernel
  · have lost : (crowdMachine ["/proc/7/task/8/stat"]).machine.readStat? (taskPath 7 "8") =
        .ok none := by
      decide +kernel
    refine (later (crowdMachine ["/proc/7/task/8/stat"]).machine ["8", "7"]
      (openOn_crowdMachine _ (by decide)) (by decide +kernel) (List.Perm.refl _)).2 "8" 8 (by decide)
      ⟨_, seenTask, rfl⟩ (fun line tells => ?_) ?_
    · cases lost.symm.trans (readStat?_eq_some_iff.mpr tells)
    · have same : forall name, name ∈ ["8", "7"] -> name ≠ "8" ->
          forall file, file ∈ ["/stat", "/syscall"] ->
            (crowdMachine ["/proc/7/task/8/stat"]).machine.readFile (taskPath 7 name ++ file) =
              (crowdMachine []).machine.readFile (taskPath 7 name ++ file) := by
        decide +kernel
      exact fun name among apart => ⟨same name among apart "/stat" (by decide),
        same name among apart "/syscall" (by decide)⟩

end Machine
end MemoryProbe
