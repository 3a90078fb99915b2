import MemoryProbe.Kernel.LiveHeaps
import MemoryProbe.Listing
import MemoryProbe.Proofs.Region.Mappings
import MemoryProbe.Proofs.Writing

namespace MemoryProbe

/-!
What of a machine is looked at for the sake of one process: the paths below its directory
and its memory.  Machines that agree on those are the same to every view of the process, be
it of its mappings, its contents, its images, its threads or its heaps.
-/

/-- Two machines agree on a process: on every path below its directory, and on its memory. -/
structure Machine.AgreesOn (machine other : Machine) (pid : UInt32) : Prop where
  readFile : forall path,
    machine.readFile (Machine.processDirectory pid ++ "/" ++ path) =
      other.readFile (Machine.processDirectory pid ++ "/" ++ path)
  listDirectory : forall path,
    machine.listDirectory (Machine.processDirectory pid ++ "/" ++ path) =
      other.listDirectory (Machine.processDirectory pid ++ "/" ++ path)
  readLink : forall path,
    machine.readLink (Machine.processDirectory pid ++ "/" ++ path) =
      other.readLink (Machine.processDirectory pid ++ "/" ++ path)
  readMemory : machine.readMemory pid = other.readMemory pid

namespace Machine

/-- A path lies below the directory of a process. -/
def Below (pid : UInt32) (path : String) : Prop :=
  ∃ rest, path = processDirectory pid ++ "/" ++ rest

theorem below_append (pid : UInt32) (rest : String) :
    Below pid (processDirectory pid ++ "/" ++ rest) :=
  ⟨rest, rfl⟩

theorem below_mapsPath (pid : UInt32) : Below pid (mapsPath pid) :=
  ⟨"maps", by rw [String.append_assoc]; rfl⟩

theorem below_executablePath (pid : UInt32) : Below pid (executablePath pid) :=
  ⟨"exe", by rw [String.append_assoc]; rfl⟩

theorem below_taskDirectory (pid : UInt32) : Below pid (taskDirectory pid) :=
  ⟨"task", by rw [String.append_assoc]; rfl⟩

theorem below_iff_prefix {pid : UInt32} {path : String} :
    Below pid path <-> (processDirectory pid ++ "/").toList <+: path.toList := by
  constructor
  · rintro ⟨rest, rfl⟩
    exact ⟨rest.toList, String.toList_append.symm⟩
  · rintro ⟨rest, same⟩
    refine ⟨String.ofList rest, String.toList_inj.mp ?_⟩
    rw [String.toList_append, String.toList_ofList, same]

instance (pid : UInt32) (path : String) : Decidable (Below pid path) :=
  decidable_of_iff _ below_iff_prefix.symm

theorem Below.append {pid : UInt32} {path : String} (below : Below pid path) (rest : String) :
    Below pid (path ++ rest) := by
  rcases below with ⟨first, rfl⟩
  exact ⟨first ++ rest, by rw [String.append_assoc]⟩

end Machine

/-- Two parts behind the same answer come to the same if they do for that answer. -/
theorem Run.bind_ofExcept_congr {Narrow Cause Answer Later : Type}
    {result : Except Narrow Answer} {embed : Narrow -> Cause}
    {rest other : Answer -> Run Cause Later}
    (same : forall answer, result = .ok answer -> rest answer = other answer) :
    (ofExcept (result.mapError embed) >>= rest) =
      (ofExcept (result.mapError embed) >>= other) := by
  cases result with
  | error cause => rfl
  | ok answer =>
      have taken : forall trace, (ofExcept ((Except.ok answer).mapError embed) :
          Run Cause Answer) trace = (.ok answer, trace) := fun _ => rfl
      funext trace
      rw [bind_of_ok (taken trace), bind_of_ok (taken trace), same answer rfl]

namespace LiveProcess

variable {machine : Machine} {pid : UInt32} {process : LiveProcess}

/-- An opened process has the number it was opened by. -/
theorem pid_of_openOn (opened : openOn machine pid = .ok process) : process.pid = pid := by
  rcases openOn_eq_ok_iff.mp opened with ⟨listing, mappings, -, -, rfl⟩
  rfl

theorem pid_of_openReadable {earlierReads : Nat}
    (opened : openReadable machine pid earlierReads = .ok process) : process.pid = pid := by
  unfold openReadable at opened
  cases taken : openOn machine pid with
  | error cause =>
      rw [taken] at opened
      contradiction
  | ok same =>
      rw [taken] at opened
      have own := pid_of_openOn taken
      simp only [bind, Except.bind] at opened
      -- A process that can be opened is answered as it was opened.
      have equal : same = process := by
        repeat' split at opened
        all_goals first | exact Except.ok.inj opened | contradiction
      exact equal ▸ own

end LiveProcess

namespace Machine
namespace AgreesOn

variable {machine other : Machine} {pid : UInt32} (agrees : machine.AgreesOn other pid)
  {path : String}

include agrees

theorem readText_eq (below : Below pid path) : machine.readText path = other.readText path := by
  rcases below with ⟨rest, rfl⟩
  unfold readText
  rw [agrees.readFile]

theorem listDirectory_eq (below : Below pid path) :
    machine.listDirectory path = other.listDirectory path := by
  rcases below with ⟨rest, rfl⟩
  exact agrees.listDirectory rest

theorem readLink_eq (below : Below pid path) : machine.readLink path = other.readLink path := by
  rcases below with ⟨rest, rfl⟩
  exact agrees.readLink rest

/-! ## Contents -/

theorem openOn_eq : LiveProcess.openOn machine pid = LiveProcess.openOn other pid := by
  unfold LiveProcess.openOn
  rw [agrees.readText_eq (below_mapsPath pid)]

theorem target_eq {process : LiveProcess} (own : process.pid = pid) :
    process.target machine = process.target other := by
  have link := agrees.readLink_eq (below_executablePath pid)
  unfold LiveProcess.target LiveProcess.readOn
  rw [own, agrees.readMemory, link]

theorem openReadable_eq (earlierReads : Nat) :
    LiveProcess.openReadable machine pid earlierReads =
      LiveProcess.openReadable other pid earlierReads := by
  unfold LiveProcess.openReadable
  rw [agrees.openOn_eq]
  cases opened : LiveProcess.openOn other pid with
  | error cause => rfl
  | ok process =>
      have same := agrees.target_eq (LiveProcess.pid_of_openOn opened)
      simp only [bind, Except.bind]
      rw [same]

theorem openReadableIn_eq {Cause : Type} :
    (LiveProcess.openReadableIn machine pid : Run Cause _) =
      LiveProcess.openReadableIn other pid := by
  unfold LiveProcess.openReadableIn LiveProcess.probeCount
  simp only [agrees.openReadable_eq, agrees.openOn_eq]

/-! ## Images and threads -/

theorem modules_eq : machine.modules pid = other.modules pid := by
  unfold modules
  rw [agrees.openOn_eq]

theorem readStat?_eq (below : Below pid path) :
    machine.readStat? path = other.readStat? path := by
  unfold readStat?
  rw [agrees.readText_eq (below.append "/stat")]

theorem stack?_eq (process : LiveProcess) (below : Below pid path) :
    machine.stack? process path = other.stack? process path := by
  unfold stack?
  rw [agrees.readText_eq (below.append "/syscall")]

theorem readThread?_eq {process : LiveProcess} (own : process.pid = pid) :
    machine.readThread? process = other.readThread? process := by
  funext name
  have below : Below pid (taskDirectory process.pid ++ "/" ++ name) := by
    rw [own]
    exact ((below_taskDirectory pid).append "/").append name
  unfold readThread?
  dsimp only
  rw [agrees.readStat?_eq below, agrees.stack?_eq process below]

theorem threads_eq : machine.threads pid = other.threads pid := by
  unfold threads
  rw [agrees.openOn_eq, agrees.listDirectory_eq (below_taskDirectory pid)]
  cases opened : LiveProcess.openOn other pid with
  | error cause => rfl
  | ok process =>
      have same := agrees.readThread?_eq (LiveProcess.pid_of_openOn opened)
      simp only [bind, Except.bind, Except.mapError]
      rw [same]

/-! ## Heaps -/

theorem walkProcessHeaps_eq (listsBlocks wantsEntropy : Bool) :
    walkProcessHeaps machine pid listsBlocks wantsEntropy =
      walkProcessHeaps other pid listsBlocks wantsEntropy := by
  have readers (earlierReads : Nat) :
      ((LiveProcess.openReadable other pid earlierReads).map fun opened =>
        opened.target machine) =
      (LiveProcess.openReadable other pid earlierReads).map fun opened =>
        opened.target other := by
    cases opened : LiveProcess.openReadable other pid earlierReads with
    | error cause => rfl
    | ok process =>
        exact congrArg Except.ok (agrees.target_eq (LiveProcess.pid_of_openReadable opened))
  unfold walkProcessHeaps
  rw [agrees.openOn_eq]
  refine Run.bind_ofExcept_congr fun process opened => ?_
  rw [agrees.target_eq (LiveProcess.pid_of_openOn opened), agrees.openReadableIn_eq]
  cases wantsEntropy with
  | false => rfl
  | true =>
      funext trace
      have tried : (LiveProcess.openReadableIn other pid : Run HeapError _) trace =
        (.ok (LiveProcess.openReadable other pid trace.reads), _) := rfl
      dsimp only
      rw [Run.bind_of_ok tried, Run.bind_of_ok tried, readers]

end AgreesOn

/-- A machine on which nothing but one process is to be seen. -/
def only (machine : Machine) (pid : UInt32) : Machine where
  readFile path := if Below pid path then machine.readFile path else .error (.os 2)
  listDirectory path := if Below pid path then machine.listDirectory path else .error (.os 2)
  readLink path := if Below pid path then machine.readLink path else .error (.os 2)
  readMemory other earlierReads address length :=
    if other = pid then machine.readMemory pid earlierReads address length else .error 3

/-- A process is the same on the machine that has no other. -/
theorem agreesOn_only (machine : Machine) (pid : UInt32) :
    machine.AgreesOn (machine.only pid) pid where
  readFile path := (if_pos (below_append pid path)).symm
  listDirectory path := (if_pos (below_append pid path)).symm
  readLink path := (if_pos (below_append pid path)).symm
  readMemory := by
    funext earlierReads address length
    exact (if_pos rfl).symm

end Machine
end MemoryProbe
