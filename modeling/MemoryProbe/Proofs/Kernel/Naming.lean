import MemoryProbe.Kernel.Tasks
import MemoryProbe.Proofs.Kernel.Listing
import MemoryProbe.Proofs.Kernel.Status
import MemoryProbe.Proofs.Region.Mappings
import MemoryProbe.Proofs.Text.Decoding

namespace MemoryProbe

/-!
Names of any bytes.  The kernel prints the name of a process into its status line, and the paths
of mapped files into its listing of mappings, as the bytes that they are.  Both files are read as
text.  So a process is listed exactly if its name is text, and it can be opened exactly if all
its paths are; which text that is makes no difference.
-/

namespace Text

/-- The bytes of a text that begins below `0x80` begin there as well. -/
theorem head?_utf8Bytes {first : Char} (low : first.toNat < 128) (text : List Char) :
    forall byte, byte ∈ (utf8Bytes (first :: text)).head? -> byte < 0x80 := by
  intro byte begins
  rw [utf8Bytes, List.flatMap_cons,
    List.head?_append_of_ne_nil _ (letter_encode first).ne_nil] at begins
  rcases (letter_encode first).marks with ⟨mark, small, single, -⟩ | ⟨-, -, large⟩
  · rw [single] at begins
    exact Option.some.inj begins ▸ small
  · exact absurd low (Nat.not_lt.mpr large)

end Text

/-! ## Status lines -/

namespace PrintedTask

variable {task : PrintedTask} {name : List UInt8} {rest : List Char}

/-- The bytes of the status line of a task whose name is given in bytes. -/
def bytes (task : PrintedTask) (name : List UInt8) (rest : List Char) : List UInt8 :=
  Text.utf8Bytes (task.front ++ ['(']) ++ (name ++ Text.utf8Bytes (')' :: rest))

/-- How a process with a name is listed. -/
def entry (task : PrintedTask) (name : List Char) : ProcessEntry where
  pid := task.pid
  name := String.ofList name
  parentPid := task.parentPid
  threads := task.threads
  basePriority := task.priority

/-- A status line is text exactly if the name is. -/
theorem decode_bytes :
    Text.utf8Decode? (task.bytes name rest) =
      (Text.utf8Decode? name).map fun text => task.line text rest := by
  have apart := Text.head?_utf8Bytes (by decide : (')').toNat < 128) rest
  rw [bytes, (Text.spells_utf8Bytes _).decode_append, Text.utf8Decode?_append name _ apart,
    (Text.spells_utf8Bytes _).decodes]
  cases Text.utf8Decode? name with
  | none => rfl
  | some text => simp [line]

end PrintedTask

namespace Machine

variable {machine : Machine} {names : List String}

/-- A file that can be read is a text file if its bytes are text. -/
theorem readText_of_readFile {path : String} {bytes : List UInt8}
    (file : machine.readFile path = .ok bytes) :
    machine.readText path = (Text.utf8Decode? bytes).elim (.error .invalidText) .ok := by
  unfold readText
  simp only [file, bind, Except.bind]
  cases Text.utf8Decode? bytes <;> rfl

/-- A status line that cannot be read is left out. -/
theorem exists_readStat? (machine : Machine) (directory : String) :
    ∃ line?, machine.readStat? directory = .ok line? := by
  unfold readStat?
  split
  · exact ⟨_, rfl⟩
  · split
    · exact ⟨_, rfl⟩
    · exact ⟨_, rfl⟩
    · rename_i kind fault
      exact absurd fault (StatLine.ofText_ne_fault _ kind)

theorem exists_readProcess? (machine : Machine) (name : String) :
    ∃ shown?, machine.readProcess? name = .ok shown? := by
  unfold readProcess?
  split
  · exact ⟨_, rfl⟩
  · rcases machine.exists_readStat? ("/proc/" ++ name) with ⟨line?, read⟩
    rw [read]
    exact ⟨_, rfl⟩

/-- A name in the listing stands for the process with its number. -/
theorem natural32?_of_readProcess? {name : String} {entry : ProcessEntry}
    (read : machine.readProcess? name = .ok (some entry)) :
    Text.natural32? name.toList = some entry.pid := by
  unfold readProcess? at read
  split at read
  · cases read
  · rename_i pid number
    rcases machine.exists_readStat? ("/proc/" ++ name) with ⟨line?, known⟩
    rw [known] at read
    cases line? with
    | none => cases read
    | some line =>
        cases read
        exact number

/-- The listing of the processes is what was found for the names, sorted. -/
theorem processes_eq {entries : List (Option ProcessEntry)}
    (lists : machine.listDirectory "/proc" = .ok names)
    (read : names.mapM machine.readProcess? = .ok entries) :
    machine.processes = .ok ((entries.filterMap id).mergeSort fun left right =>
      decide (left.pid ≤ right.pid)) := by
  unfold processes
  rw [lists]
  simp only [Except.mapError, bind, Except.bind, read]
  rfl

/-- The listing of the processes is what the names stand for. -/
theorem exists_processes (lists : machine.listDirectory "/proc" = .ok names) :
    ∃ listing, machine.processes = .ok listing ∧
      forall entry, entry ∈ listing <->
        ∃ name, name ∈ names ∧ machine.readProcess? name = .ok (some entry) := by
  rcases exists_mapM fun name (_ : name ∈ names) => machine.exists_readProcess? name with
    ⟨entries, read⟩
  refine ⟨_, processes_eq lists read, fun entry => ?_⟩
  rw [List.mem_mergeSort, mem_filterMap_of_mapM read]

/-- The name of a process in the listing is its number in digits. -/
theorem natural32?_toString (pid : UInt32) :
    Text.natural32? (toString pid.toNat).toList = some pid := by
  have digits : (toString pid.toNat).toList = Text.numeral 10 0 pid.toNat := by
    change (Nat.repr pid.toNat).toList = _
    rw [Nat.toList_repr, Text.numeral, Text.padZeros, Nat.zero_sub]
    rfl
  rw [digits, Text.natural32?_numeral]

variable {task : PrintedTask} {name : List UInt8} {rest : List Char}

theorem readProcess?_of_stat (spaced : Text.Spaced task.fields rest)
    (stat : machine.readFile (processDirectory task.pid ++ "/stat") =
      .ok (task.bytes name rest)) :
    machine.readProcess? (toString task.pid.toNat) =
      .ok ((Text.utf8Decode? name).map task.entry) := by
  have read : machine.readStat? (processDirectory task.pid) =
      .ok ((Text.utf8Decode? name).map task.stat) := by
    unfold readStat?
    rw [readText_of_readFile stat, PrintedTask.decode_bytes]
    cases Text.utf8Decode? name with
    | none => rfl
    | some text => simp only [Option.map_some, Option.elim_some, PrintedTask.ofText_line spaced]
  unfold readProcess?
  rw [natural32?_toString]
  have directory : "/proc/" ++ toString task.pid.toNat = processDirectory task.pid := rfl
  dsimp only
  rw [directory, read]
  cases Text.utf8Decode? name <;> rfl

end Machine

/-! ## Listings of mappings -/

/-- A mapping that is printed with the bytes of a path behind it.  There is a blank in front of
the path, and no line feed in it. -/
structure NamedMapping where
  listed : ListedMapping
  pathless : listed.path = none
  spacing : ListedMapping.Spacing
  path : List UInt8
  unbroken : 10 ∉ path
  apart : path ≠ [] -> 0 < spacing.blanks

namespace NamedMapping

variable (named : NamedMapping)

/-- The line of the mapping, its end included. -/
def bytes : List UInt8 :=
  Text.utf8Bytes (named.listed.line named.spacing) ++ (named.path ++ [10])

/-- That line as text, if the path is text. -/
def line (path : List Char) : List Char :=
  named.listed.line named.spacing ++ (path ++ ['\n'])

/-- What of the mapping is kept: its path is trimmed, and nothing is left of a blank one. -/
def mapping (path : List Char) : Mapping :=
  { named.listed.mapping with path := Mapping.path? [path] }

/-- The path is the bytes of a text. -/
def Reads (path : List Char) : Prop :=
  Text.utf8Decode? named.path = some path

variable {named} {path : List Char}

theorem decode_bytes_append (rest : List UInt8) :
    Text.utf8Decode? (named.bytes ++ rest) =
      (Text.utf8Decode? named.path).bind fun path =>
        (Text.utf8Decode? rest).map fun behind => named.line path ++ behind := by
  have ended : Text.Letter [10] '\n' :=
    ⟨fun rest => Text.utf8Decode?_one rest (by decide), Or.inl ⟨10, by decide, rfl, rfl⟩⟩
  have apart : forall byte, byte ∈ ([10] ++ rest).head? -> byte < 0x80 := by
    intro byte first
    exact Option.some.inj first ▸ by decide
  rw [bytes, List.append_assoc, List.append_assoc, (Text.spells_utf8Bytes _).decode_append,
    Text.utf8Decode?_append named.path _ apart, ended.decodes]
  cases Text.utf8Decode? named.path with
  | none => rfl
  | some path => cases Text.utf8Decode? rest <;> simp [line]

theorem not_mem_path (reads : named.Reads path) : '\n' ∉ path := fun member =>
  named.unbroken ((Text.spells_of_decode reads).mem_of_mem (by decide) member)

/-- A carriage return at the end of a path is taken for a part of the line end, and is blank. -/
theorem dropTrailing_line (path : List Char) :
    Text.dropTrailing '\r' (named.listed.line named.spacing ++ path) =
      named.listed.line named.spacing ++ Text.dropTrailing '\r' path := by
  cases path with
  | nil =>
      rw [List.append_nil]
      exact (if_neg ListedMapping.getLast?_line).trans (List.append_nil _).symm
  | cons first rest =>
      unfold Text.dropTrailing
      rw [List.getLast?_append_of_ne_nil _ (List.cons_ne_nil first rest)]
      split
      · rw [List.dropLast_append_of_ne_nil (List.cons_ne_nil first rest)]
      · rfl

theorem ofLine_append (blanks : path ≠ [] -> 0 < named.spacing.blanks) :
    Mapping.ofLine (named.listed.line named.spacing ++ path) = .ok (named.mapping path) := by
  have gap : Text.Blank (List.replicate named.spacing.blanks ' ') := fun character member =>
    (List.mem_replicate.mp member).2 ▸ by decide
  have apart : forall character,
      character ∈ (List.replicate named.spacing.blanks ' ' ++ path).head? ->
        Text.isBlank character = true := by
    intro character first
    by_cases empty : path = []
    · rw [empty, List.append_nil] at first
      exact gap character (List.mem_of_mem_head? first)
    · have wide := blanks empty
      rw [List.head?_append_of_ne_nil _ (by simp; omega)] at first
      exact gap character (List.mem_of_mem_head? first)
  have read := @ListedMapping.ofLine_columns named.listed named.spacing _ apart
  have whole : named.listed.line named.spacing ++ path =
      (named.listed.columns named.spacing).flatMap (fun column => column ++ [' ']) ++
        (Text.numeral 10 named.spacing.inode named.listed.inode.toNat ++
          (List.replicate named.spacing.blanks ' ' ++ path)) := by
    simp [ListedMapping.line, ListedMapping.tail, named.pathless]
  rw [whole, read, mapping]
  simp only [Mapping.path?, Text.trim_blank_append gap]

theorem ofLine_line (reads : named.Reads path) :
    Mapping.ofLine (Text.dropTrailing '\r' (named.listed.line named.spacing ++ path)) =
      .ok (named.mapping path) := by
  have trimmed : Text.trim (Text.dropTrailing '\r' path) = Text.trim path := by
    unfold Text.dropTrailing
    split
    · rename_i last
      rcases List.getLast?_eq_some_iff.mp last with ⟨front, rfl⟩
      rw [List.dropLast_concat, Text.trim_append_blank (by decide)]
    · rfl
  have blanks : Text.dropTrailing '\r' path ≠ [] -> 0 < named.spacing.blanks := by
    intro filled
    refine named.apart fun none => filled ?_
    rw [Reads, none] at reads
    cases reads
    rfl
  rw [dropTrailing_line, ofLine_append blanks, mapping, mapping]
  simp only [Mapping.path?, trimmed]

variable {entries : List NamedMapping} {paths : List (List Char)}

/-- A listing whose paths are text is text. -/
theorem decode_bytes (reads : List.Forall₂ Reads entries paths) :
    Text.utf8Decode? (entries.flatMap bytes) = some (List.zipWith line entries paths).flatten := by
  induction reads with
  | nil => rfl
  | cons first _ ih =>
      rw [List.flatMap_cons, decode_bytes_append, first, ih]
      rfl

/-- A listing with a path that is no text is none. -/
theorem decode_bytes_eq_none {entry : NamedMapping} (member : entry ∈ entries)
    (illegible : Text.utf8Decode? entry.path = none) :
    Text.utf8Decode? (entries.flatMap bytes) = none := by
  induction entries with
  | nil => exact absurd member List.not_mem_nil
  | cons first rest ih =>
      rw [List.flatMap_cons, decode_bytes_append]
      rcases List.mem_cons.mp member with rfl | later
      · rw [illegible]
        rfl
      · rw [ih later]
        cases Text.utf8Decode? first.path <;> rfl

theorem ofListing_lines (reads : List.Forall₂ Reads entries paths) :
    Mapping.ofListing (List.zipWith line entries paths).flatten =
      .ok (List.zipWith mapping entries paths) := by
  rw [Mapping.ofListing_eq, mapM_eq_ok_iff]
  induction reads with
  | nil => rfl
  | @cons named path entries paths first _ ih =>
      have unbroken : '\n' ∉ named.listed.line named.spacing ++ path := fun member =>
        (List.mem_append.mp member).elim ListedMapping.line_unbroken (not_mem_path first)
      have filled : ¬Text.Blank
          (Text.dropTrailing '\r' (named.listed.line named.spacing ++ path)) := by
        rw [dropTrailing_line]
        exact fun blank => absurd
          (blank '-' (List.mem_append_left _ ListedMapping.dash_mem_line)) (by decide)
      have cut := Text.lines_append unbroken (List.zipWith line entries paths).flatten
      have whole : named.line path ++ (List.zipWith line entries paths).flatten =
          named.listed.line named.spacing ++ path ++
            '\n' :: (List.zipWith line entries paths).flatten := by
        simp [line]
      rw [List.zipWith_cons_cons, List.flatten_cons, whole, cut, List.filter_cons,
        if_pos (decide_eq_true filled), List.map_cons, ofLine_line first, ih,
        List.zipWith_cons_cons, List.map_cons]

end NamedMapping

/-! ## Processes -/

namespace Machine

variable {machine : Machine} {names : List String} {task : PrintedTask} {name : List UInt8}
  {rest : List Char} {entries : List NamedMapping}

/-- A process with such a listing is opened if its paths are text, and has a region for each
mapping. -/
theorem openOn_of_reads {pid : UInt32} {paths : List (List Char)}
    (maps : machine.readFile (mapsPath pid) = .ok (entries.flatMap NamedMapping.bytes))
    (reads : List.Forall₂ NamedMapping.Reads entries paths) :
    LiveProcess.openOn machine pid =
      .ok (LiveProcess.ofMappings pid (List.zipWith NamedMapping.mapping entries paths)) := by
  have text : machine.readText (mapsPath pid) =
      .ok (List.zipWith NamedMapping.line entries paths).flatten := by
    rw [readText_of_readFile maps, NamedMapping.decode_bytes reads, Option.elim_some]
  exact LiveProcess.openOn_eq_ok_iff.mpr
    ⟨_, _, text, NamedMapping.ofListing_lines reads, rfl⟩

theorem openOn_of_illegible {pid : UInt32} {entry : NamedMapping}
    (maps : machine.readFile (mapsPath pid) = .ok (entries.flatMap NamedMapping.bytes))
    (member : entry ∈ entries) (illegible : Text.utf8Decode? entry.path = none) :
    LiveProcess.openOn machine pid = .error (.openFailed pid 0) := by
  have text : machine.readText (mapsPath pid) = .error .invalidText := by
    rw [readText_of_readFile maps, NamedMapping.decode_bytes_eq_none member illegible,
      Option.elim_none]
  unfold LiveProcess.openOn
  rw [text]
  rfl

/-- A process whose files are as the kernel prints them is listed exactly if its name is text,
and as that text.  It is opened exactly if all the paths in its listing are text, with a region
for each mapping; otherwise it cannot be looked into at all. -/
theorem shown_iff_names_are_text (lists : machine.listDirectory "/proc" = .ok names)
    (among : toString task.pid.toNat ∈ names)
    (sole : forall other, other ∈ names ->
      Text.natural32? other.toList = some task.pid -> other = toString task.pid.toNat)
    (spaced : Text.Spaced task.fields rest)
    (stat : machine.readFile (processDirectory task.pid ++ "/stat") =
      .ok (task.bytes name rest))
    (maps : machine.readFile (mapsPath task.pid) = .ok (entries.flatMap NamedMapping.bytes)) :
    (∃ listing, machine.processes = .ok listing ∧
      forall entry, (entry ∈ listing ∧ entry.pid = task.pid) <->
        ∃ text, Text.utf8Decode? name = some text ∧ entry = task.entry text) ∧
    (forall paths, List.Forall₂ NamedMapping.Reads entries paths ->
      ∃ process, LiveProcess.openOn machine task.pid = .ok process ∧
        process.mappings = List.zipWith NamedMapping.mapping entries paths ∧
        process.regions.Perm (process.mappings.map (Mapping.region process.images)) ∧
        process.regions.length = entries.length) ∧
    forall entry, entry ∈ entries -> Text.utf8Decode? entry.path = none ->
      LiveProcess.openOn machine task.pid = .error (.openFailed task.pid 0) := by
  refine ⟨?_, fun paths reads => ?_, fun entry member => openOn_of_illegible maps member⟩
  · rcases exists_processes lists with ⟨listing, listed, stands⟩
    have own := readProcess?_of_stat spaced stat
    refine ⟨listing, listed, fun entry => ⟨?_, ?_⟩⟩
    · rintro ⟨member, same⟩
      rcases (stands entry).mp member with ⟨other, here, read⟩
      have number := natural32?_of_readProcess? read
      rw [sole other here (same ▸ number), own, Except.ok.injEq, Option.map_eq_some_iff] at read
      rcases read with ⟨text, known, made⟩
      exact ⟨text, known, made.symm⟩
    · rintro ⟨text, known, rfl⟩
      rw [known, Option.map_some] at own
      exact ⟨(stands _).mpr ⟨_, among, own⟩, rfl⟩
  · have perm := @Mapping.regions_perm
      (ImageModule.ofMappings (List.zipWith NamedMapping.mapping entries paths))
      (List.zipWith NamedMapping.mapping entries paths)
    refine ⟨_, openOn_of_reads maps reads, rfl, perm, ?_⟩
    have lengths := perm.length_eq
    rw [List.length_map, List.length_zipWith, <- reads.length_eq, Nat.min_self] at lengths
    exact lengths

/-- A task with zeros in the fields that do not matter. -/
def plainTask : PrintedTask where
  pid := 7
  state := ['S']
  parentPid := 1
  between := List.replicate 13 ['0']
  thirteen := rfl
  priority := 20
  priority_fits := by decide
  nice := 0
  nice_fits := by decide
  threads := 1
  behind := [['0']]
  unclosed := by decide

/-- What stands behind the name of the task. -/
def plainRest : List Char :=
  plainTask.fields.flatMap (fun field => ' ' :: field) ++ ['\n']

theorem spaced_plainRest : Text.Spaced plainTask.fields plainRest :=
  PrintedTask.spaced_fields (by decide)

theorem pathName_of_none : forall name, name ∈ (none : Option String) ->
    PathName name.toList := fun name member =>
  absurd member (Option.not_mem_none name)

/-- A mapping of a file, in front of its path. -/
def pathlessFile : ListedMapping :=
  { ListedMapping.deletedFile with path := none, named := pathName_of_none }

theorem pathlessFile_path : pathlessFile.path = none := rfl

/-- A mapping of a file with a path. -/
def pathMapping (path : List UInt8) (unbroken : 10 ∉ path) : NamedMapping where
  listed := pathlessFile
  pathless := pathlessFile_path
  spacing := ⟨8, 8, 8, 0, 20⟩
  path := path
  unbroken := unbroken
  apart _ := Nat.succ_pos 19

/-- A machine with one process, which has a name and maps one file. -/
def loneMachine (name path : List UInt8) (unbroken : 10 ∉ path) : Machine where
  readFile file :=
    if file = processDirectory 7 ++ "/stat" then .ok (plainTask.bytes name plainRest)
    else if file = mapsPath 7 then .ok (pathMapping path unbroken).bytes
    else .error (.os 2)
  listDirectory _ := .ok ["7", "self"]
  readLink _ := .error (.os 2)
  readMemory _ _ _ _ := .error 14

theorem loneMachine_stat (name path : List UInt8) (unbroken : 10 ∉ path) :
    (loneMachine name path unbroken).readFile (processDirectory plainTask.pid ++ "/stat") =
      .ok (plainTask.bytes name plainRest) := by
  rw [loneMachine]
  dsimp only
  exact if_pos rfl

theorem loneMachine_maps (name path : List UInt8) (unbroken : 10 ∉ path) :
    (loneMachine name path unbroken).readFile (mapsPath plainTask.pid) =
      .ok ([pathMapping path unbroken].flatMap NamedMapping.bytes) := by
  have other : mapsPath plainTask.pid ≠ processDirectory 7 ++ "/stat" := by decide
  rw [List.flatMap_singleton, loneMachine]
  dsimp only
  rw [if_neg other]
  exact if_pos rfl

/-- A process is shown although its name is full of parentheses and not of ASCII characters. -/
theorem shown_iff_names_are_text_of_lone :
    ∃ machine listing process,
      machine = loneMachine (Text.utf8Bytes ")é (".toList) (Text.utf8Bytes "/srv/é ".toList)
        (by decide) ∧
      machine.processes = .ok listing ∧ plainTask.entry ")é (".toList ∈ listing ∧
      LiveProcess.openOn machine 7 = .ok process ∧ process.regions.length = 1 := by
  have sole : forall other, other ∈ ["7", "self"] ->
      Text.natural32? other.toList = some plainTask.pid ->
        other = toString plainTask.pid.toNat := by decide
  rcases shown_iff_names_are_text rfl (by decide) sole spaced_plainRest
    (loneMachine_stat (Text.utf8Bytes ")é (".toList) (Text.utf8Bytes "/srv/é ".toList)
      (by decide)) (loneMachine_maps _ _ _) with ⟨⟨listing, listed, entries⟩, opens, -⟩
  rcases opens ["/srv/é ".toList] (.cons (Text.spells_utf8Bytes _).decodes .nil) with
    ⟨process, opened, -, -, one⟩
  exact ⟨_, listing, process, rfl, listed,
    ((entries _).mpr ⟨_, (Text.spells_utf8Bytes _).decodes, rfl⟩).1, opened, one⟩

/-- One byte that is no text, in the name and in the path of a file, and the process is neither
listed nor can it be opened. -/
theorem lone_process_hidden :
    ∃ machine, machine = loneMachine [0x61, 0xff] [0x2f, 0xff] (by decide) ∧
      machine.listDirectory "/proc" = .ok ["7", "self"] ∧
      machine.readFile (processDirectory 7 ++ "/stat") =
        .ok (plainTask.bytes [0x61, 0xff] plainRest) ∧
      machine.readFile (mapsPath 7) =
        .ok ([pathMapping [0x2f, 0xff] (by decide)].flatMap NamedMapping.bytes) ∧
      machine.processes = .ok [] ∧
      LiveProcess.openOn machine 7 = .error (.openFailed 7 0) := by
  refine ⟨_, rfl, rfl, loneMachine_stat _ _ _, loneMachine_maps _ _ _, ?_, ?_⟩
  · cbv
  · cbv

end Machine

end MemoryProbe
