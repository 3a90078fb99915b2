import MemoryProbe.Kernel.LiveProcess
import MemoryProbe.Kernel.Stat

namespace MemoryProbe

/-!
The processes of a machine, and the images and tasks of a process.  Processes
and tasks come and go while they are listed, so one whose status cannot be read
is left out, and leaves the others as they are.
-/

/-- A process in a listing. -/
structure ProcessEntry where
  pid : UInt32
  name : String
  parentPid : UInt32
  threads : UInt32
  basePriority : Int
  priorityClass : Option UInt32 := none
deriving DecidableEq, Repr

/-- An image in a listing. -/
structure ModuleEntry where
  name : String
  path : String
  base : Address
  size : Word
deriving DecidableEq, Repr

/-- The place of a thread's stack. -/
structure StackInfo where
  base : Address
  size : Word
deriving DecidableEq, Repr

/-- A thread in a listing. -/
structure ThreadEntry where
  id : UInt32
  owner : UInt32
  basePriority : Int
  deltaPriority : Int
  stack : Option StackInfo
deriving DecidableEq, Repr

namespace Machine

/-- The status line in a directory; nothing if it cannot be read. -/
def readStat? (machine : Machine) (directory : String) :
    Except Fault (Option StatLine) :=
  match machine.readText (directory ++ "/stat") with
  | .error _ => .ok none
  | .ok text =>
    match StatLine.ofText text with
    | .ok line => .ok (some line)
    | .error (.failure _) => .ok none
    | .error (.fault kind) => .error kind

/-- The process that a name in `/proc` stands for; nothing if the name is no
number or the status cannot be read. -/
def readProcess? (machine : Machine) (name : String) :
    Except Fault (Option ProcessEntry) :=
  match Text.natural32? name.toList with
  | none => .ok none
  | some pid => do
    let line? <- machine.readStat? ("/proc/" ++ name)
    return line?.map fun line =>
      { pid := pid
        name := line.name
        parentPid := line.parentPid
        threads := line.threads
        basePriority := line.priority }

/-- All processes by rising number. -/
def processes (machine : Machine) : Except (Halt MemoryError) (List ProcessEntry) := do
  let names <- (machine.listDirectory "/proc").mapError (Halt.failure ∘ .io)
  let entries <- (names.mapM machine.readProcess? : Except Fault _)
  return (entries.filterMap id).mergeSort fun left right =>
    decide (left.pid ≤ right.pid)

/-- The images of a process by rising base. -/
def modules (machine : Machine) (pid : UInt32) : Except MemoryError (List ModuleEntry) := do
  let process <- LiveProcess.openOn machine pid
  return process.images.map fun image =>
    { name := moduleBaseName image.path
      path := image.path
      base := ⟨image.base⟩
      size := image.stop - image.base }

/-- The region that a task's stack pointer points into, if it is committed
private memory. -/
def stack? (machine : Machine) (process : LiveProcess) (directory : String) :
    Except Fault (Option StackInfo) :=
  match (machine.readText (directory ++ "/syscall")).toOption.bind stackPointer? with
  | none => .ok none
  | some pointer => do
    let region? <- queryRegions process.regions pointer
    return region?.bind fun region =>
      if region.isCommitted && region.kind == .privateMemory then
        some ⟨region.base, region.size⟩
      else
        none

/-- The task that a name in the task directory stands for; nothing if its
status cannot be read. -/
def readThread? (machine : Machine) (process : LiveProcess) (name : String) :
    Except Fault (Option ThreadEntry) := do
  let directory := taskDirectory process.pid ++ "/" ++ name
  match <- machine.readStat? directory with
  | none => return none
  | some line =>
    let stack <- machine.stack? process directory
    return some
      { id := line.pid
        owner := process.pid
        basePriority := line.priority
        deltaPriority := line.nice
        stack := stack }

/-- The threads of a process by rising number. -/
def threads (machine : Machine) (pid : UInt32) :
    Except (Halt MemoryError) (List ThreadEntry) := do
  let process <- (LiveProcess.openOn machine pid).mapError Halt.failure
  let names <- (machine.listDirectory (taskDirectory pid)).mapError
    (Halt.failure ∘ .io)
  let entries <- (names.mapM (machine.readThread? process) : Except Fault _)
  return (entries.filterMap id).mergeSort fun left right =>
    decide (left.id ≤ right.id)

end Machine

end MemoryProbe
