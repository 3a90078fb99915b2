import MemoryProbe.Kernel.LiveHeaps

namespace MemoryProbe

/-!
Walking the heaps of a live process while they are listed.  The header behind a block is
read before the block is visited, and the one behind the next block only after that, so
that reads of headers and of contents alternate and are counted together.  A walk of the
listing comes to the same at a process that does not change; at any other it comes to what
this walk would if the reads were answered at other times.
-/

/-- Tell of one more heap, or leave it out. -/
def HeapSummary.adjoin (summary : HeapSummary) : Option HeapStats -> HeapSummary
  | some stats => { summary with heaps := summary.heaps ++ [stats] }
  | none => { summary with skippedHeaps := summary.skippedHeaps + 1 }

namespace Chunk

/-- Read a size word within a run, which counts the read. -/
def readSizeIn (target : Target) (block : Word) : Run HeapError (Option Word) := fun trace =>
  let reading := readSize target trace.reads block
  (.ok reading.1.toOption, { trace with reads := trace.reads + reading.2.length })

/-- The size word behind a block that stops there, if there is room for a header and it
can be read. -/
def readBehind (target : Target) (stop heapStop : Word) : Run HeapError (Option Word) :=
  if headerFits stop heapStop then readSizeIn target stop else return none

/-- The block of a size word, by the size word behind it if there is one. -/
def entry (block sizeWord : Word) (behind : Option Word) : HeapBlock :=
  ⟨⟨block⟩, statedSize sizeWord, usage (behind.any previousInUse)⟩

end Chunk

namespace HeapWalker

open Chunk

/-- Visit a block that was listed and the blocks behind it, each when the header behind it
was read: the blocks behind it, and how many were left unread, besides those before. -/
def visitLive (walker : HeapWalker) (target : Target) (heapStop : Word) (unread : Nat)
    (block : HeapBlock) (stop : Word) (behind : Option Word) :
    Run HeapError (List HeapBlock × Nat) := do
  let missed <- walker.visitBlock block
  match behind with
  | none => return ([], unread + missed.toNat)
  | some sizeWord =>
    match _hstop : blockStop? stop heapStop sizeWord with
    | none => return ([], unread + missed.toNat)
    | some past => do
      let next <- readBehind target past heapStop
      let following := entry stop sizeWord next
      let (rest, total) <-
        walker.visitLive target heapStop (unread + missed.toNat) following past next
      return (following :: rest, total)
termination_by UInt64.size - stop.toNat
decreasing_by
  have hlt := lt_of_blockStop?_eq_some _hstop
  have hbound : past.toNat < UInt64.size := past.toNat_lt
  omega

/-- Walk the blocks of a live heap from the first one on, which was listed. -/
def walkLive (walker : HeapWalker) (target : Target) (id : HeapId) (heapStop : Word)
    (first : HeapBlock) (stop : Word) (behind : Option Word) :
    Run HeapError HeapStats := do
  resetHistogram
  let (rest, unread) <- walker.visitLive target heapStop 0 first stop behind
  let histogram <- countedBytes
  return walker.stats id first rest unread histogram

/-- Walk a live heap from its first size word on, and print what is found out, if there is a
block. -/
def showFrom (walker : HeapWalker) (target : Target) (id : HeapId)
    (heapStart heapStop sizeWord : Word) : Run HeapError (Option HeapStats) :=
  match blockStop? heapStart heapStop sizeWord with
  | none => return none
  | some stop => do
    let behind <- readBehind target stop heapStop
    printHeading id
    let first := entry heapStart sizeWord behind
    let stats <- walker.walkLive target id heapStop first stop behind
    printStats stats
    return some stats

/-- Walk a live heap, unless its first size word cannot be had. -/
def showLive (walker : HeapWalker) (target : Target) (id : HeapId)
    (heapStart heapStop : Word) : Run HeapError (Option HeapStats) := do
  match <- readSizeIn target heapStart with
  | none => return none
  | some sizeWord => walker.showFrom target id heapStart heapStop sizeWord

end HeapWalker

namespace LiveHeaps

open HeapWalker

/-- Walk the live heap of a name and print what is found out, if it has blocks. -/
def showNamed (heaps : LiveHeaps) (target : Target) (walker : HeapWalker) (id : HeapId) :
    Run HeapError (Option HeapStats) :=
  match heaps.range? id with
  | none => return none
  | some range => walker.showLive target id range.1 range.2

/-- Walk live heaps, behind those walked before. -/
def walkEach (heaps : LiveHeaps) (target : Target) (walker : HeapWalker)
    (summary : HeapSummary) : List HeapId -> Run HeapError HeapSummary
  | [] => return summary
  | id :: rest => do
    let shown <- heaps.showNamed target walker id
    heaps.walkEach target walker (summary.adjoin shown) rest

/-- Walk all heaps of a process while they are listed. -/
def walk (heaps : LiveHeaps) (target : Target) (walker : HeapWalker) :
    Run HeapError HeapSummary := do
  printNone heaps.ids
  let summary <- heaps.walkEach target walker {} heaps.ids
  Run.writeLine ""
  return summary

end LiveHeaps

end MemoryProbe
