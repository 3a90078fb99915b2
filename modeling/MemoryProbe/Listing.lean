import MemoryProbe.Kernel.Tasks

namespace MemoryProbe

/-!
Printed listings of processes, images and threads.  Every entry begins with an
empty line, and one more empty line ends the listing.
-/

namespace Listing

/-- The line above the name of a process. -/
def rule : String :=
  "====================================================="

/-- The line below the name of a process. -/
def thinRule : String :=
  "-------------------------------------------------------"

/-- A number in decimal, and in hexadecimal of eight digits. -/
def bothRadixes (number : UInt32) : String :=
  toString number.toNat ++ " (0x" ++ Text.paddedUpperHex 8 number.toNat ++ ")"

def processLines (entry : ProcessEntry) : List String :=
  ["\n" ++ rule,
    "PROCESS NAME:  " ++ entry.name,
    thinRule,
    "  Process ID        = " ++ bothRadixes entry.pid,
    "  Thread count      = " ++ toString entry.threads.toNat,
    "  Parent process ID = " ++ bothRadixes entry.parentPid,
    "  Priority base     = " ++ toString entry.basePriority]
    ++ match entry.priorityClass with
      | some priorityClass =>
        ["  Priority class    = " ++ toString priorityClass.toNat]
      | none => []

/-- The lines about an image. -/
def moduleLines (pid : UInt32) (entry : ModuleEntry) : List String :=
  ["\n     MODULE NAME:     " ++ entry.name,
    "     Executable     = " ++ entry.path,
    "     Process ID     = " ++ toString pid.toNat,
    "     Base address   = " ++ entry.base.text,
    "     Base size      = 0x" ++ Text.hex entry.size.toNat]

def threadLines (entry : ThreadEntry) : List String :=
  ["\n     THREAD ID         = " ++ bothRadixes entry.id,
    "     Base priority     = " ++ toString entry.basePriority,
    "     Delta priority    = " ++ toString entry.deltaPriority]
    ++ match entry.stack with
      | some stack =>
        ["     Stack Base        = " ++ stack.base.text,
          "     Stack Size        = 0x" ++ Text.hex stack.size.toNat]
      | none => ["     Stack             = unavailable"]

variable {Cause : Type} [OfIoError Cause]

def writeLines (lines : List String) : Run Cause Unit := do
  lines.forM Run.writeLine
  Run.writeLine ""

def writeProcesses (entries : List ProcessEntry) : Run Cause Unit :=
  writeLines (entries.flatMap processLines)

/-- Print the images of a process. -/
def writeModules (pid : UInt32) (entries : List ModuleEntry) : Run Cause Unit :=
  writeLines (entries.flatMap (moduleLines pid))

def writeThreads (entries : List ThreadEntry) : Run Cause Unit :=
  writeLines (entries.flatMap threadLines)

end Listing

namespace Machine

/-- Print all processes, and count them. -/
def listProcesses (machine : Machine) : Run MemoryError Nat := do
  let entries <- Run.ofHalting machine.processes
  Listing.writeProcesses entries
  return entries.length

/-- Print the images of a process, and count them. -/
def listModules (machine : Machine) (pid : UInt32) : Run MemoryError Nat := do
  let entries <- Run.ofExcept (machine.modules pid)
  Listing.writeModules pid entries
  return entries.length

/-- Print the threads of a process, and count them. -/
def listThreads (machine : Machine) (pid : UInt32) : Run MemoryError Nat := do
  let entries <- Run.ofHalting (machine.threads pid)
  Listing.writeThreads entries
  return entries.length

end Machine

end MemoryProbe
