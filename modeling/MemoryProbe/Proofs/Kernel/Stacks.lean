import MemoryProbe.Proofs.Kernel.Skipping
import MemoryProbe.Proofs.Region.Kinds
import MemoryProbe.Proofs.Region.Seeking

namespace MemoryProbe

/-!
The stacks of threads.  A thread that waits in a system call shows its stack pointer, and its
stack is the mapping of private memory that holds this address.  What is next to an address is
never taken for its stack, be it a gap, a mapping without any access, a file or an image.
-/

/-! ## Stack pointers -/

namespace Text

/-- A number in hexadecimal digits behind any number of marks that say so, and perhaps a plus
sign. -/
def WritesHex (text : List Char) (value : Nat) : Prop :=
  ∃ count number, text = (List.replicate count "0x".toList).flatten ++ number ∧
    Writes 16 number value

theorem not_mem_of_writes {text : List Char} {value : Nat} (written : Writes 16 text value) :
    'x' ∉ text := fun member => absurd (written.plus_or_digit member) (by decide)

theorem word?_dropRepeated_iff {text : List Char} {word : Word} :
    word? 16 (dropRepeated '0' 'x' text) = some word <-> WritesHex text word.toNat := by
  rw [word?_eq_some_iff]
  constructor
  · intro written
    rcases exists_dropRepeated '0' 'x' text with ⟨count, split⟩
    exact ⟨count, _, split, written⟩
  · rintro ⟨count, number, rfl, written⟩
    have plain := @dropRepeated_append Char _ '0' 'x' count number
    rw [dropRepeated_of_not_mem (not_mem_of_writes written)] at plain
    exact plain.symm ▸ written

end Text

/-- A line about a system call shows a stack pointer: it has three fields or more, the first of
which does not say that the task is running, and the last but one is the pointer. -/
def PointsTo (text : List Char) (pointer : Address) : Prop :=
  ∃ first middle field last, Text.words text = first :: (middle ++ [field, last]) ∧
    first ≠ "running".toList ∧ Text.WritesHex field pointer.value.toNat

theorem stackPointer?_of_words {text first field last : List Char} {middle : List (List Char)}
    (fields : Text.words text = first :: (middle ++ [field, last])) :
    stackPointer? text =
      if first = "running".toList then none
      else (Text.word? 16 (Text.dropRepeated '0' 'x' field)).map Address.mk := by
  have place : (first :: (middle ++ [field, last]))[middle.length + 1]? = some field := by simp
  have wide : ¬(first :: (middle ++ [field, last])).length < 3 := by simp
  unfold stackPointer?
  dsimp only
  rw [fields]
  simp only [wide, false_or, List.head?_cons, Option.some.injEq]
  split
  · rfl
  · have index : (first :: (middle ++ [field, last])).length - 2 = middle.length + 1 := by simp
    rw [index, place, Option.bind_some]

/-- Three fields or more have a first one and two last ones. -/
theorem exists_ends {fields : List (List Char)} (wide : 3 ≤ fields.length) :
    ∃ first middle field last, fields = first :: (middle ++ [field, last]) := by
  rcases fields with _ | ⟨first, rest⟩
  · contradiction
  · rcases List.eq_nil_or_concat rest with rfl | ⟨front, last, rfl⟩
    · contradiction
    · rcases List.eq_nil_or_concat front with rfl | ⟨middle, field, rfl⟩
      · contradiction
      · exact ⟨first, middle, field, last, by simp⟩

theorem stackPointer?_eq_some_iff {text : List Char} {pointer : Address} :
    stackPointer? text = some pointer <-> PointsTo text pointer := by
  constructor
  · intro shown
    have wide : 3 ≤ (Text.words text).length := by
      by_contra narrow
      have none : stackPointer? text = none := if_pos (Or.inl (Nat.not_le.mp narrow))
      rw [none] at shown
      contradiction
    rcases exists_ends wide with ⟨first, middle, field, last, fields⟩
    rw [stackPointer?_of_words fields] at shown
    split at shown
    · contradiction
    · rename_i still
      rcases Option.map_eq_some_iff.mp shown with ⟨word, read, rfl⟩
      exact ⟨first, middle, field, last, fields, still, Text.word?_dropRepeated_iff.mp read⟩
  · rintro ⟨first, middle, field, last, fields, still, written⟩
    rw [stackPointer?_of_words fields, if_neg still, Text.word?_dropRepeated_iff.mpr written]
    rfl

/-! ## Private memory -/

/-- A mapping of a process can be the stack of a task with a pointer.  It allows some access,
maps no file, does not have the path of an image, and holds the address. -/
structure Mapping.HoldsStack (mapping : Mapping) (process : LiveProcess) (pointer : Address) :
    Prop where
  member : mapping ∈ process.mappings
  access : mapping.protection.anyAccess = true
  fileless : mapping.isFileBacked = false
  imageless : forall image, image ∈ process.images -> mapping.path ≠ some image.path
  begun : mapping.start ≤ pointer.value
  below : pointer.value < mapping.stop

namespace Mapping

variable {mapping : Mapping} {images : List ImageModule} {address : Address}

/-- A region holds the addresses of its mapping. -/
theorem region_contains_iff (rising : mapping.start ≤ mapping.stop) :
    (mapping.region images).contains address = true <->
      mapping.start ≤ address.value ∧ address.value < mapping.stop := by
  have ends := @region_end images mapping rising
  have bound : mapping.stop.toNat < UInt64.size := mapping.stop.toNat_lt
  rw [Region.contains_eq_true_iff, Region.stop_toNat (ends ▸ bound), ends, region_start]
  exact and_congr UInt64.le_iff_toNat_le.symm UInt64.lt_iff_toNat_lt.symm

end Mapping

namespace LiveProcess

variable {process : LiveProcess}

/-- The mappings of a process are filled, and no two of them overlap. -/
structure Disjoint (process : LiveProcess) : Prop where
  filled : forall mapping, mapping ∈ process.mappings -> mapping.start < mapping.stop
  apart : process.mappings.Pairwise Mapping.Apart

/-- Committed private memory is found at an address exactly if a mapping holds it that can be a
stack. -/
theorem exists_private_iff (disjoint : process.Disjoint)
    (regions : process.regions = Mapping.regions process.mappings process.images)
    (address : Address) (region : Region) :
    (chart process.regions address = some region ∧ region.isCommitted = true ∧
        region.kind = .privateMemory) <->
      ∃ mapping : Mapping, mapping.HoldsStack process address ∧
        region = mapping.region process.images := by
  have ordered : Ordered process.regions :=
    regions ▸ Mapping.ordered_regions process.mappings disjoint.filled disjoint.apart
  have origin : forall area, area ∈ process.regions <->
      ∃ mapping, mapping ∈ process.mappings ∧ mapping.region process.images = area := by
    intro area
    rw [regions, (Mapping.regions_perm process.mappings).mem_iff, List.mem_map]
  constructor
  · rintro ⟨charted, committed, kind⟩
    have lies := @Region.liesAt_chart process.regions address ordered
    rw [charted] at lies
    cases lies with
    | region member holds =>
        rcases (origin region).mp member with ⟨mapping, among, rfl⟩
        rcases Mapping.kind_eq_private_iff.mp kind with ⟨fileless, imageless⟩
        rw [Mapping.region_isCommitted] at committed
        rcases (Mapping.region_contains_iff (UInt64.le_of_lt (disjoint.filled mapping among))).mp
          holds with ⟨begun, below⟩
        exact ⟨mapping, ⟨among, committed, fileless, imageless, begun, below⟩, rfl⟩
    | gap split bare passed above isGap =>
        -- A gap is free.
        rw [isGap.kind_eq] at kind
        contradiction
  · rintro ⟨mapping, holds, rfl⟩
    have contains : (mapping.region process.images).contains address = true :=
      (Mapping.region_contains_iff (UInt64.le_of_lt (disjoint.filled mapping holds.member))).mpr
        ⟨holds.begun, holds.below⟩
    have lies := Region.LiesAt.region ((origin _).mpr ⟨mapping, holds.member, rfl⟩) contains
    refine ⟨(lies.eq_chart ordered).symm, ?_, ?_⟩
    · rw [Mapping.region_isCommitted]
      exact holds.access
    · exact Mapping.kind_eq_private_iff.mpr ⟨holds.fileless, holds.imageless⟩

end LiveProcess

namespace Machine

variable {machine : Machine} {pid : UInt32} {process : LiveProcess}

/-- A task has a stack: its system call line shows a pointer, and there is a mapping that holds
it. -/
def StacksAt (machine : Machine) (process : LiveProcess) (directory : String)
    (stack : StackInfo) : Prop :=
  ∃ text pointer, ∃ mapping : Mapping, machine.readText (directory ++ "/syscall") = .ok text ∧
    PointsTo text pointer ∧ mapping.HoldsStack process pointer ∧
    stack = ⟨⟨mapping.start⟩, mapping.size⟩

theorem stack?_eq (ordered : Ordered process.regions) (directory : String) :
    machine.stack? process directory =
      .ok (((machine.readText (directory ++ "/syscall")).toOption.bind stackPointer?).bind
        fun pointer => (chart process.regions pointer).bind fun region =>
          if region.isCommitted && region.kind == .privateMemory then
            some ⟨region.base, region.size⟩
          else
            none) := by
  unfold stack?
  cases (machine.readText (directory ++ "/syscall")).toOption.bind stackPointer? with
  | none => rfl
  | some pointer =>
      dsimp only
      rw [queryRegions_eq ordered]
      rfl

/-- Private memory that is found at a stack pointer is the stack, and nothing else is. -/
theorem stack?_eq_some_iff {source : Machine} (opened : LiveProcess.openOn source pid = .ok process)
    (disjoint : process.Disjoint) {directory : String} {stack : StackInfo} :
    machine.stack? process directory = .ok (some stack) <->
      machine.StacksAt process directory stack := by
  have regions := LiveProcess.regions_of_openOn opened
  have ordered : Ordered process.regions :=
    regions ▸ Mapping.ordered_regions process.mappings disjoint.filled disjoint.apart
  rw [stack?_eq ordered, Except.ok.injEq, Option.bind_eq_some_iff]
  constructor
  · rintro ⟨pointer, shown, found⟩
    rcases Option.bind_eq_some_iff.mp shown with ⟨text, read, points⟩
    rcases Option.bind_eq_some_iff.mp found with ⟨region, charted, held⟩
    split at held
    · rename_i test
      rcases Bool.and_eq_true_iff.mp test with ⟨committed, kind⟩
      rcases (LiveProcess.exists_private_iff disjoint regions pointer region).mp
        ⟨charted, committed, beq_iff_eq.mp kind⟩ with ⟨mapping, holds, rfl⟩
      rw [Mapping.region_base, Mapping.region_size, Option.some.injEq] at held
      have file : machine.readText (directory ++ "/syscall") = .ok text := by
        cases same : machine.readText (directory ++ "/syscall") with
        | error cause =>
            rw [same] at read
            contradiction
        | ok found =>
            rw [same] at read
            exact congrArg Except.ok (Option.some.inj read)
      exact ⟨text, pointer, mapping, file, stackPointer?_eq_some_iff.mp points, holds, held.symm⟩
    · contradiction
  · rintro ⟨text, pointer, mapping, read, points, holds, rfl⟩
    rcases (LiveProcess.exists_private_iff disjoint regions pointer _).mpr ⟨mapping, holds, rfl⟩
      with ⟨charted, committed, kind⟩
    refine ⟨pointer, ?_, ?_⟩
    · rw [read]
      exact stackPointer?_eq_some_iff.mpr points
    · rw [charted, Option.bind_some, committed, kind, Mapping.region_base, Mapping.region_size]
      rfl

/-- The listing of the threads has one for each name whose status is told, with the stack that
is found for it, sorted by number. -/
theorem threads_eq {names : List String} (opened : LiveProcess.openOn machine pid = .ok process)
    (lists : machine.listDirectory (taskDirectory pid) = .ok names)
    {told : String -> Option StatLine} {stack : String -> Option StackInfo}
    (read : forall name, name ∈ names -> machine.readStat? (taskPath pid name) = .ok (told name))
    (found : forall name, machine.stack? process (taskPath pid name) = .ok (stack name)) :
    machine.threads pid =
      .ok ((sortBy (fun task => task.2.pid) (names.filterMap fun name =>
        (told name).map fun line => (name, line))).map fun task =>
          task.2.thread pid (stack task.1)) := by
  have own := LiveProcess.pid_of_openOn opened
  subst own
  have shown : forall name, name ∈ names -> machine.readThread? process name =
      .ok ((told name).map fun line => line.thread process.pid (stack name)) :=
    fun name member => readThread?_of_read (read name member) (found name)
  have answered : names.mapM (machine.readThread? process) =
      .ok (names.map fun name =>
        (told name).map fun line => line.thread process.pid (stack name)) :=
    mapM_eq_ok_iff.mpr ((List.map_congr_left shown).trans List.map_map.symm)
  have entries : (names.map fun name =>
        (told name).map fun line => line.thread process.pid (stack name)).filterMap id =
      (names.filterMap fun name => (told name).map fun line => (name, line)).map
        fun task => task.2.thread process.pid (stack task.1) := by
    rw [List.filterMap_map, List.map_filterMap]
    refine List.filterMap_congr fun name _ => ?_
    rw [Option.map_map]
    rfl
  rw [threads_of_answers opened lists answered, entries, <- map_sortBy]
  rfl

/-- The tasks that the names in a directory stand for, with their statuses, by rising number. -/
structure ListsTasks (machine : Machine) (pid : UInt32) (names : List String)
    (tasks : List (String × StatLine)) : Prop where
  mem_iff : forall name line, (name, line) ∈ tasks <->
    name ∈ names ∧ machine.Tells (taskPath pid name) line
  once : names.Nodup -> (tasks.map Prod.fst).Nodup
  rising : tasks.Pairwise fun task later => task.2.pid ≤ later.2.pid

theorem listsTasks_sortBy {names : List String} {told : String -> Option StatLine}
    (read : forall name, machine.readStat? (taskPath pid name) = .ok (told name)) :
    machine.ListsTasks pid names (sortBy (fun task => task.2.pid) (names.filterMap fun name =>
      (told name).map fun line => (name, line))) where
  rising := pairwise_sortBy _
  once distinct := by
    have perm := List.mergeSort_perm (names.filterMap fun name =>
      (told name).map fun line => (name, line)) fun left right => decide (left.2.pid ≤ right.2.pid)
    refine (perm.map Prod.fst).nodup_iff.mpr ?_
    rw [List.map_filterMap]
    refine distinct.filterMap fun name other first here there => ?_
    simp only [Option.map_map, Option.mem_def, Option.map_eq_some_iff, Function.comp_apply]
      at here there
    rcases here with ⟨_, -, rfl⟩
    rcases there with ⟨_, -, rfl⟩
    rfl
  mem_iff name line := by
    rw [sortBy, List.mem_mergeSort, List.mem_filterMap, <- readStat?_eq_some_iff]
    constructor
    · rintro ⟨other, member, known⟩
      rcases Option.map_eq_some_iff.mp known with ⟨found, tells, same⟩
      cases same
      exact ⟨member, (read name).trans (congrArg Except.ok tells)⟩
    · rintro ⟨member, tells⟩
      have known := Except.ok.inj ((read name).symm.trans tells)
      exact ⟨name, member, by rw [known]; rfl⟩

/-- Which threads have stacks.  A thread has one exactly if its system call line shows a pointer
and a mapping that can be a stack holds it, and the stack is that mapping.  What is the matter
with the stack of one thread makes no difference to any other. -/
theorem stacks_hold_their_pointers (opened : LiveProcess.openOn machine pid = .ok process)
    (disjoint : process.Disjoint) {names : List String}
    (lists : machine.listDirectory (taskDirectory pid) = .ok names) :
    ∃ tasks, machine.ListsTasks pid names tasks ∧
    ∃ stack : String -> Option StackInfo,
      machine.threads pid = .ok (tasks.map fun task => task.2.thread pid (stack task.1)) ∧
      (forall name place, stack name = some place <->
        machine.StacksAt process (taskPath pid name) place) ∧
      (forall name place, stack name = some place ->
        ∃ text pointer, machine.readText (taskPath pid name ++ "/syscall") = .ok text ∧
          PointsTo text pointer ∧ place.base.toNat ≤ pointer.toNat ∧
          pointer.toNat < place.base.toNat + place.size.toNat) ∧
      forall other : Machine, LiveProcess.openOn other pid = .ok process ->
        other.listDirectory (taskDirectory pid) = .ok names ->
        (forall name, name ∈ names -> SameStat machine other (taskPath pid name)) ->
        ∃ others : String -> Option StackInfo,
          other.threads pid = .ok (tasks.map fun task => task.2.thread pid (others task.1)) ∧
          forall name, SameTask machine other (taskPath pid name) -> others name = stack name := by
  choose told read using fun name => machine.exists_readStat? (taskPath pid name)
  choose stack found using fun name => machine.exists_stack? process (taskPath pid name)
  have places : forall name place, stack name = some place <->
      machine.StacksAt process (taskPath pid name) place := by
    intro name place
    rw [<- stack?_eq_some_iff opened disjoint, found, Except.ok.injEq]
  refine ⟨_, listsTasks_sortBy read, stack, threads_eq opened lists (fun name _ => read name) found,
    places, fun name place stands => ?_, fun other reopened relists same => ?_⟩
  · rcases (places name place).mp stands with ⟨text, pointer, mapping, file, points, holds, rfl⟩
    have begun := UInt64.le_iff_toNat_le.mp holds.begun
    have below := UInt64.lt_iff_toNat_lt.mp holds.below
    have size := Mapping.size_toNat (UInt64.le_of_lt (disjoint.filled mapping holds.member))
    refine ⟨text, pointer, file, points, begun, ?_⟩
    change pointer.value.toNat < mapping.start.toNat + mapping.size.toNat
    omega
  · choose others refound using fun name => other.exists_stack? process (taskPath pid name)
    refine ⟨others, threads_eq reopened relists (fun name member => ?_) refound,
      fun name task => ?_⟩
    · rw [readStat?_congr (same name member), read]
    · have equal := refound name
      rw [stack?_congr task.syscall, found, Except.ok.injEq] at equal
      exact equal.symm

/-- A page without any access, and a page of private memory behind it. -/
def guardedMappings : List Mapping :=
  [⟨0x1000, 0x2000, Protection.none, 0, 0, none⟩,
    ⟨0x2000, 0x3000, Protection.ofColumn "rw-p".toList, 0, 0, none⟩]

/-- A machine with a process of two tasks.  The pointer of the second one has run into the page
without any access. -/
def guardedMachine : StagedMachine :=
  let status := fun number =>
    Text.utf8Bytes (number ++ " (a) S 1 0 0 0 0 0 0 0 0 0 0 0 0 0 20 0 2").toList
  let listing := "1000-2000 ---p 0 00:00 0\n2000-3000 rw-p 0 00:00 0\n"
  { files := [("/proc/7/maps", Text.utf8Bytes listing.toList),
      ("/proc/7/task/7/stat", status "7"), ("/proc/7/task/8/stat", status "8"),
      ("/proc/7/task/7/syscall", Text.utf8Bytes "202 0x0 0x0x2ff8 0x401000\n".toList),
      ("/proc/7/task/8/syscall", Text.utf8Bytes "202 0x0 0x1ff8 0x401000\n".toList)] }

/-- The first task has a stack, the second one has none. -/
theorem stacks_hold_their_pointers_of_guarded :
    ∃ listing first second, guardedMachine.machine.threads 7 = .ok listing ∧
      first ∈ listing ∧ first.id = 7 ∧ first.stack = some ⟨⟨0x2000⟩, 0x1000⟩ ∧
      second ∈ listing ∧ second.id = 8 ∧ second.stack = none := by
  have opened : LiveProcess.openOn guardedMachine.machine 7 =
      .ok (LiveProcess.ofMappings 7 guardedMappings) :=
    LiveProcess.openOn_eq_ok_iff.mpr
      ⟨"1000-2000 ---p 0 00:00 0\n2000-3000 rw-p 0 00:00 0\n".toList, guardedMappings,
        by decide +kernel, by decide +kernel, rfl⟩
  have disjoint : (LiveProcess.ofMappings 7 guardedMappings).Disjoint :=
    ⟨by decide +kernel, by decide +kernel⟩
  have lines : forall name, name ∈ ["7", "8"] -> forall id, Text.natural32? name.toList = some id ->
      guardedMachine.machine.Tells (taskPath 7 name) ⟨id, "a", 1, 20, 0, 2⟩ := by
    have read : forall name, name ∈ ["7", "8"] ->
        guardedMachine.machine.readStat? (taskPath 7 name) =
          .ok ((Text.natural32? name.toList).map fun id => ⟨id, "a", 1, 20, 0, 2⟩) := by
      decide +kernel
    intro name member id number
    rw [<- readStat?_eq_some_iff, read name member, number]
    rfl
  rcases stacks_hold_their_pointers opened disjoint
    (by decide +kernel : _ = Except.ok ["7", "8"]) with
    ⟨tasks, listed, stack, threads, places, -, -⟩
  have first : ("7", _) ∈ tasks := (listed.mem_iff "7" _).mpr
    ⟨by decide, lines "7" (by decide) 7 (by decide)⟩
  have second : ("8", _) ∈ tasks := (listed.mem_iff "8" _).mpr
    ⟨by decide, lines "8" (by decide) 8 (by decide)⟩
  refine ⟨_, _, _, threads, List.mem_map_of_mem first, rfl, ?_, List.mem_map_of_mem second, rfl,
    ?_⟩
  · refine (places "7" _).mpr ⟨"202 0x0 0x0x2ff8 0x401000\n".toList, ⟨0x2ff8⟩,
      ⟨0x2000, 0x3000, Protection.ofColumn "rw-p".toList, 0, 0, none⟩, by decide +kernel,
      stackPointer?_eq_some_iff.mp (by decide +kernel), ?_, by decide⟩
    exact ⟨by decide, by decide, by decide, fun image _ => nofun, by decide, by decide⟩
  · refine Option.eq_none_iff_forall_ne_some.mpr fun place stands => ?_
    rcases (places "8" place).mp stands with ⟨text, pointer, mapping, file, points, holds, -⟩
    have known : guardedMachine.machine.readText (taskPath 7 "8" ++ "/syscall") =
        .ok "202 0x0 0x1ff8 0x401000\n".toList := by
      decide +kernel
    have shown : stackPointer? "202 0x0 0x1ff8 0x401000\n".toList = some ⟨0x1ff8⟩ := by
      decide +kernel
    cases known.symm.trans file
    cases shown.symm.trans (stackPointer?_eq_some_iff.mpr points)
    rcases List.mem_cons.mp holds.member with rfl | behind
    · exact absurd holds.access (by decide)
    · cases List.mem_singleton.mp behind
      exact absurd holds.begun (by decide)

end Machine
end MemoryProbe
