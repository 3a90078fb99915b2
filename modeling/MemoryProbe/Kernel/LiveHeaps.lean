import MemoryProbe.Heap.Chunk
import MemoryProbe.Heap.Walk
import MemoryProbe.Kernel.LiveProcess

namespace MemoryProbe

/-!
The heaps of a live process: the mappings that the kernel names `[heap]`.  A
heap is named by the address at which it starts.
-/

/-- The ranges of the heaps of a process, in the order of its mappings. -/
structure LiveHeaps where
  process : LiveProcess
  ranges : List (Word × Word)

namespace LiveHeaps

/-- The path under which the kernel lists a heap. -/
def heapPath : String := "[heap]"

def ofProcess (process : LiveProcess) : LiveHeaps where
  process := process
  ranges :=
    (process.mappings.filter fun mapping => mapping.path == some heapPath).map
      fun mapping => (mapping.start, mapping.stop)

/-- The names of the heaps. -/
def ids (heaps : LiveHeaps) : List HeapId :=
  heaps.ranges.map fun range => ⟨range.1⟩

/-- The range of the first heap of a name. -/
def range? (heaps : LiveHeaps) (id : HeapId) : Option (Word × Word) :=
  heaps.ranges.find? fun range => range.1 == id.value

def blocks (heaps : LiveHeaps) (target : Target) (id : HeapId) :
    Except MemoryError (List HeapBlock) :=
  match heaps.range? id with
  | none => .error (.notSupported ("unknown heap " ++ id.text))
  | some range => Chunk.blocks target range.1 range.2

/-- The heaps as a listing, whose blocks are read through a target.  The headers of a heap
are read at once and before any contents, with a count of their own. -/
def listing (heaps : LiveHeaps) (target : Target) : HeapListing where
  pid := heaps.process.pid
  heaps := .ok heaps.ids
  blocks := heaps.blocks target

end LiveHeaps

def walkProcessHeaps (machine : Machine) (pid : UInt32)
    (listsBlocks wantsEntropy : Bool) : Run HeapError HeapSummary := do
  let process <- Run.ofExcept ((LiveProcess.openOn machine pid).mapError .memory)
  let heaps := LiveHeaps.ofProcess process
  let listing := heaps.listing (process.target machine)
  match wantsEntropy with
  | false => listing.walk listsBlocks none
  | true =>
    let opened <- LiveProcess.openReadableIn machine pid
    listing.walk listsBlocks (some (opened.map fun opened => opened.target machine))

end MemoryProbe
