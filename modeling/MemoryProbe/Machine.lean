import MemoryProbe.Failure
import MemoryProbe.Text.Utf8

namespace MemoryProbe

/-!
The machine that processes run on, as far as it is looked at: the files,
directories and links under `/proc`, and the memory of other processes.  Every
answer depends on the question alone, and for memory on how many reads came
before.
-/

/-- A machine with processes on it. -/
structure Machine where
  /-- The contents of a file. -/
  readFile : (path : String) -> Except IoError (List UInt8)
  /-- The names in a directory, in any order. -/
  listDirectory : (path : String) -> Except IoError (List String)
  /-- The target of a symbolic link. -/
  readLink : (path : String) -> Except IoError String
  /-- Bytes of another process's memory, or the operating system's code. -/
  readMemory : (pid : UInt32) -> (earlierReads : Nat) -> Address ->
    (length : Nat) -> Except Int (List UInt8)

namespace Machine

/-- The contents of a file that is text. -/
def readText (machine : Machine) (path : String) : Except IoError (List Char) := do
  let bytes <- machine.readFile path
  match Text.utf8Decode? bytes with
  | some text => return text
  | none => throw .invalidText

def processDirectory (pid : UInt32) : String :=
  "/proc/" ++ toString pid.toNat

/-- The listing of the mappings of a process. -/
def mapsPath (pid : UInt32) : String :=
  processDirectory pid ++ "/maps"

/-- The link to the main executable of a process. -/
def executablePath (pid : UInt32) : String :=
  processDirectory pid ++ "/exe"

def taskDirectory (pid : UInt32) : String :=
  processDirectory pid ++ "/task"

end Machine

end MemoryProbe
