import MemoryProbe.Region
import MemoryProbe.Run

namespace MemoryProbe

/-!
The inspected process, seen through four questions: which region an address
belongs to, which bytes lie at an address, which file an image was loaded from,
and which file the process runs.  Nothing is assumed about the answers.  A read
is told how many reads came before it, so a process that changes while it is
looked at is a target like any other.
-/

/-- A read-only view of a process. -/
structure Target where
  pid : UInt32
  /-- The region that holds an address, or the gap that starts there; nothing
  at the end of the address space. -/
  query : Address -> Except (Halt MemoryError) (Option Region)
  /-- The bytes copied from an address when `length` bytes are asked for.
  Fewer bytes than asked for are no failure. -/
  read : (earlierReads : Nat) -> Address -> (length : Nat) ->
    Except MemoryError (List UInt8)
  /-- The file of the image that is loaded at an allocation base. -/
  modulePath : Address -> Option String
  /-- The main executable. -/
  imagePath : Option String

namespace Target

/-- Read within a run, which counts the read. -/
def readIn {Cause : Type} (target : Target) (address : Address) (length : Nat) :
    Run Cause (Except MemoryError (List UInt8)) :=
  fun trace =>
    (.ok (target.read trace.reads address length),
      { trace with reads := trace.reads + 1 })

/-- The file of the image that a region belongs to, if it belongs to one. -/
def regionModule (target : Target) (region : Region) : Option String :=
  if region.isImage then target.modulePath region.allocationBase else none

end Target

/-- The last part of a module's path; both kinds of slash separate parts. -/
def moduleBaseName (path : String) : String :=
  let fromEnd := path.toList.reverse.takeWhile fun character =>
    character != '/' && character != '\\'
  String.ofList fromEnd.reverse

end MemoryProbe
