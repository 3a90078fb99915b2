import MemoryProbe.Heap.Block
import MemoryProbe.Heap.Histogram
import MemoryProbe.Search.Arena
import MemoryProbe.Target
import MemoryProbe.Text.FixedPlaces

namespace MemoryProbe

/-!
Walking heaps: for each heap its extent, on request its blocks, and on request
the entropy of the contents of its blocks.  Blocks that cannot be read in full
are told and left out of the entropy; they change nothing else.
-/

/-- Why a walk ends early. -/
inductive HeapError where
  | allocation (requested : Word)
  | memory (cause : MemoryError)
  | io (cause : IoError)
deriving DecidableEq, Repr

instance : OfIoError HeapError where
  ofIoError := .io

namespace HeapError

def message : HeapError -> String
  | .allocation requested =>
    "Buffer allocation of " ++ toString requested.toNat ++ " bytes failed"
  | .memory cause => cause.message
  | .io cause => "IO error: " ++ cause.message

/-- The messages of the failure and of what caused it, outermost first. -/
def chain : HeapError -> List String
  | .memory cause => cause.chain
  | .io cause => [message (.io cause), cause.message]
  | other => [other.message]

end HeapError

/-- What a walk finds out about a heap. -/
structure HeapStats where
  id : HeapId
  /-- The lowest address of a block. -/
  start : Address
  /-- The end of the block of the highest address, held at the greatest word.
  Gaps between blocks are not taken out. -/
  stop : Address
  blocks : Nat
  unreadBlocks : Nat
  entropy : Option Float

/-- The bytes from the start of a heap to its end. -/
def HeapStats.size (stats : HeapStats) : Except Fault Word :=
  stats.stop.since stats.start

/-- What a walk finds out. -/
structure HeapSummary where
  heaps : List HeapStats := []
  /-- The heaps that were listed, but whose blocks could not be had or were
  none. -/
  skippedHeaps : Nat := 0

/-- The extent of the blocks seen so far. -/
structure HeapExtent where
  /-- The lowest address of a block. -/
  start : Address
  /-- The first block of the highest address. -/
  last : HeapBlock
deriving DecidableEq, Repr

namespace HeapExtent

def ofBlock (block : HeapBlock) : HeapExtent :=
  ⟨block.address, block⟩

def adjoin (extent : HeapExtent) (block : HeapBlock) : HeapExtent where
  start := extent.start.lesser block.address
  last := if extent.last.address < block.address then block else extent.last

/-- The extent of some blocks, of which there has to be one. -/
def ofBlocks (first : HeapBlock) (rest : List HeapBlock) : HeapExtent :=
  rest.foldl adjoin (ofBlock first)

/-- The end of the last block, held at the greatest word. -/
def stop (extent : HeapExtent) : Address :=
  ⟨Word.saturatingAdd extent.last.address.value extent.last.size⟩

end HeapExtent

structure HeapWalker where
  listing : HeapListing
  listsBlocks : Bool := false
  /-- The process that contents are read from, if entropy is wanted. -/
  reader : Option Target := none

namespace HeapWalker

/-- The read buffer with at least `length` bytes.  It grows with zeros and is
never shortened. -/
def growBuffer (length : Nat) : Run HeapError Unit := fun trace =>
  if length ≤ trace.buffer.length then
    (.ok (), trace)
  else if canAllocate length then
    let missing := length - trace.buffer.length
    (.ok (), { trace with buffer := trace.buffer ++ List.replicate missing 0 })
  else
    (.error (.failure (.allocation (UInt64.ofNat length))), trace)

/-- Put copied bytes at the front of the buffer, as far as it reaches. -/
def fillBuffer (bytes : List UInt8) : Run HeapError (List UInt8) := fun trace =>
  let buffer := (bytes ++ trace.buffer.drop bytes.length).take trace.buffer.length
  (.ok buffer, { trace with buffer := buffer })

/-- Forget the bytes that were counted. -/
def resetHistogram : Run HeapError Unit := fun trace =>
  (.ok (), { trace with histogram := Histogram.empty })

/-- Count bytes, behind those counted before.  A total that is no word is a fault. -/
def countBytes (bytes : List UInt8) : Run HeapError Unit := fun trace =>
  if trace.histogram.total + bytes.length < UInt64.size then
    (.ok (), { trace with histogram := trace.histogram.add bytes })
  else
    (.error (.fault .overflow), trace)

/-- The bytes that were counted since the last reset. -/
def countedBytes : Run HeapError Histogram := fun trace =>
  (.ok trace.histogram, trace)

/-- Keep what was read of a block and count it, if it is the whole block; whether
it is. -/
def countContents (length : Nat) :
    Except MemoryError (List UInt8) -> Run HeapError Bool
  | .error _ => return false
  | .ok bytes => do
    let buffer <- fillBuffer bytes
    if bytes.length = length then
      countBytes (buffer.take length)
      return true
    else
      return false

/-- Read a block and count its contents; whether it could be read in full. -/
def accumulate (reader : Target) (block : HeapBlock) : Run HeapError Bool := do
  growBuffer block.size.toNat
  let answer <- reader.readIn block.address block.size.toNat
  countContents block.size.toNat answer

def placeText (block : HeapBlock) : String :=
  "Start address: " ++ block.address.text ++ " Block size: 0x"
    ++ Text.hex block.size.toNat

/-- Print a block, if blocks are listed. -/
def printBlock (walker : HeapWalker) (block : HeapBlock) : Run HeapError Unit :=
  if walker.listsBlocks then
    Run.writeLine (placeText block ++ " (" ++ block.flags.text ++ ")")
  else
    pure ()

/-- Print where a block lies, unless it was printed before. -/
def printPlace (walker : HeapWalker) (block : HeapBlock) : Run HeapError Unit :=
  if walker.listsBlocks then pure () else Run.writeLine (placeText block)

/-- Tell that a block was left unread. -/
def printUnread (walker : HeapWalker) (block : HeapBlock) : Run HeapError Unit := do
  walker.printPlace block
  Run.writeLine "Failed reading process memory at this block"

/-- Print and count one block; whether it was left unread. -/
def visitBlock (walker : HeapWalker) (block : HeapBlock) : Run HeapError Bool := do
  walker.printBlock block
  match walker.reader with
  | none => return false
  | some reader =>
    match <- accumulate reader block with
    | true => return false
    | false =>
      walker.printUnread block
      return true

/-- Print and count some blocks: how many of them were left unread, besides
those before. -/
def visitBlocks (walker : HeapWalker) (unread : Nat) :
    List HeapBlock -> Run HeapError Nat
  | [] => return unread
  | block :: rest => do
    let missed <- walker.visitBlock block
    walker.visitBlocks (unread + missed.toNat) rest

/-- Print some blocks and count their bytes, and no others: how many blocks were
left unread, and the histogram of the rest. -/
def measure (walker : HeapWalker) (blocks : List HeapBlock) :
    Run HeapError (Nat × Histogram) := do
  resetHistogram
  let unread <- walker.visitBlocks 0 blocks
  let histogram <- countedBytes
  return (unread, histogram)

/-- What is found out about a heap of which the blocks were visited. -/
def stats (walker : HeapWalker) (id : HeapId) (first : HeapBlock) (rest : List HeapBlock)
    (unread : Nat) (histogram : Histogram) : HeapStats where
  id := id
  start := (HeapExtent.ofBlocks first rest).start
  stop := (HeapExtent.ofBlocks first rest).stop
  blocks := rest.length + 1
  unreadBlocks := unread
  entropy := walker.reader.map fun _ => histogram.entropy

/-- Walk the blocks of a heap. -/
def walkHeap (walker : HeapWalker) (id : HeapId) (first : HeapBlock)
    (rest : List HeapBlock) : Run HeapError HeapStats := do
  let (unread, histogram) <- walker.measure (first :: rest)
  return walker.stats id first rest unread histogram

/-- Print the heading of a heap. -/
def printHeading (id : HeapId) : Run HeapError Unit :=
  Run.writeLine ("\n---- Heap ID: " ++ id.text ++ " ----")

/-- Print what was found out about a heap. -/
def printStats (stats : HeapStats) : Run HeapError Unit := do
  Run.writeLine ("\nStart Address: " ++ stats.start.text)
  Run.writeLine ("End Address: " ++ stats.stop.text)
  let size <- Run.ofChecked stats.size
  Run.writeLine ("Size: 0x" ++ Text.hex size.toNat)
  match stats.entropy with
  | some entropy => Run.writeLine ("Entropy: " ++ Text.fixedPlacesFloat 2 entropy)
  | none => pure ()

/-- Walk a heap and print what is found out. -/
def showHeap (walker : HeapWalker) (id : HeapId) (first : HeapBlock)
    (rest : List HeapBlock) : Run HeapError HeapStats := do
  printHeading id
  let stats <- walker.walkHeap id first rest
  printStats stats
  return stats

/-- Walk heaps, behind those walked before. -/
def walkHeaps (walker : HeapWalker) (summary : HeapSummary) :
    List HeapId -> Run HeapError HeapSummary
  | [] => return summary
  | id :: rest => do
    match walker.listing.blocks id with
    | .ok (first :: others) =>
      let stats <- walker.showHeap id first others
      walker.walkHeaps { summary with heaps := summary.heaps ++ [stats] } rest
    | _ =>
      walker.walkHeaps { summary with skippedHeaps := summary.skippedHeaps + 1 } rest

/-- Tell that no heaps were listed, if it is so. -/
def printNone (heaps : List HeapId) : Run HeapError Unit :=
  if heaps.isEmpty then Run.writeLine "No heaps found" else pure ()

/-- Walk all heaps of the listing. -/
def walk (walker : HeapWalker) : Run HeapError HeapSummary := do
  match walker.listing.heaps with
  | .error cause =>
    Run.writeLine ("Cannot list first heap (" ++ cause.message ++ ")")
    return {}
  | .ok heaps =>
    printNone heaps
    let summary <- walker.walkHeaps {} heaps
    Run.writeLine ""
    return summary

end HeapWalker

/-- Walk a listing.  `reader` is the outcome of opening the process for its
contents, if entropy is wanted; when that failed the walk goes on without
entropy, and says so first. -/
def HeapListing.walk (listing : HeapListing) (listsBlocks : Bool)
    (reader : Option (Except MemoryError Target)) : Run HeapError HeapSummary := do
  let walker : HeapWalker := { listing := listing, listsBlocks := listsBlocks }
  match reader with
  | none => walker.walk
  | some (.ok target) => HeapWalker.walk { walker with reader := some target }
  | some (.error cause) =>
    Run.writeLine ("Failed opening the process. " ++ cause.message)
    Run.writeLine "Entropy won't be computed!"
    walker.walk

end MemoryProbe
