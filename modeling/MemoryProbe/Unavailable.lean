import MemoryProbe.Heap.Block
import MemoryProbe.Kernel.LiveHeaps
import MemoryProbe.Kernel.Tasks

namespace MemoryProbe

/-!
Systems on which processes cannot be looked into.  Every question is answered
with the same cause, so a survey of such a process finds nothing.
-/

namespace Unavailable

/-- The name of the system. -/
def system : String := "linux"

/-- The answer to every question. -/
def cause : MemoryError :=
  .notSupported ("process inspection on " ++ system)

/-- The unit in which the system hands out addresses. -/
def granularity : Word := 4096

def openProcess (_pid : UInt32) : Except MemoryError LiveProcess :=
  .error cause

def openReadable (_pid : UInt32) : Except MemoryError LiveProcess :=
  .error cause

/-- A process that answers no question. -/
def target (pid : UInt32) : Target where
  pid := pid
  query _ := .error (.failure cause)
  read _ _ _ := .error cause
  modulePath _ := none
  imagePath := none

/-- Taking the heaps of a process. -/
def takeHeaps (_pid : UInt32) : Except MemoryError LiveHeaps :=
  .error cause

def heaps (pid : UInt32) : HeapListing where
  pid := pid
  heaps := .error cause
  blocks _ := .error cause

def processes : Except MemoryError (List ProcessEntry) :=
  .error cause

/-- Listing the images of a process. -/
def modules (_pid : UInt32) : Except MemoryError (List ModuleEntry) :=
  .error cause

def threads (_pid : UInt32) : Except MemoryError (List ThreadEntry) :=
  .error cause

end Unavailable

end MemoryProbe
