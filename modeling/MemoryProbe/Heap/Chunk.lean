import MemoryProbe.Heap.Block
import MemoryProbe.Target

namespace MemoryProbe

/-!
Heap blocks read from the headers of the C library's allocator.  Blocks lie
back to back.  The second word of each block is its size with three flags in
the lowest bits, and the lowest of them says that the block before is in use.
Size words come from a live process and may be anything; the walk stops at the
first one that would leave the heap or not lead upwards.
-/

namespace Chunk

/-- The bytes of a size word, and the distance of that word from the start of
its block. -/
def wordSize : Word := 8

/-- The bytes before the contents of a block. -/
def headerSize : Word := 16

/-- No block is smaller. -/
def leastSize : Word := 32

/-- Every block size is a multiple of this. -/
def alignment : Word := 16

def flagBits : Word := 7

/-- Whether a size word says that the block before is in use. -/
def previousInUse (sizeWord : Word) : Bool :=
  sizeWord &&& 1 != 0

def statedSize (sizeWord : Word) : Word :=
  sizeWord &&& ~~~flagBits

/-- The value of bytes of rising significance. -/
def littleEndian : List UInt8 -> Nat
  | [] => 0
  | byte :: rest => byte.toNat + 256 * littleEndian rest

/-- A size word that was read, or why there is none, with the places where memory was
read for it. -/
abbrev Reading := Except MemoryError Word × List Address

def readSize (target : Target) (reads : Nat) (block : Word) : Reading :=
  match Word.add? block wordSize with
  | none => (.error (.readFailed ⟨block⟩ 0), [])
  | some place =>
    match target.read reads ⟨place⟩ wordSize.toNat with
    | .error cause => (.error cause, [⟨place⟩])
    | .ok bytes =>
      if bytes.length = wordSize.toNat then
        (.ok (UInt64.ofNat (littleEndian bytes)), [⟨place⟩])
      else
        (.error (.readFailed ⟨place⟩ 0), [⟨place⟩])

/-- The end of a block, if its stated size is plausible in a heap that ends at
`heapStop`. -/
def blockStop? (block heapStop sizeWord : Word) : Option Word :=
  let size := statedSize sizeWord
  (Word.add? block size).filter fun stop =>
    leastSize ≤ size && size % alignment == 0 && stop ≤ heapStop

theorem lt_of_blockStop?_eq_some {block heapStop sizeWord stop : Word}
    (h : blockStop? block heapStop sizeWord = some stop) :
    block.toNat < stop.toNat := by
  unfold blockStop? at h
  obtain ⟨hadd, hplausible⟩ := Option.filter_eq_some_iff.mp h
  have hsum := Word.add?_eq_some_iff.mp hadd
  simp only [Bool.and_eq_true, decide_eq_true_eq] at hplausible
  have hleast : leastSize.toNat ≤ (statedSize sizeWord).toNat := hplausible.1.1
  have hvalue : leastSize.toNat = 32 := rfl
  omega

def headerFits (block heapStop : Word) : Bool :=
  (Word.add? block headerSize).any fun stop => stop ≤ heapStop

/-- The flags of a block, by whether the header behind it says that it is in use. -/
def usage (inUse : Bool) : BlockFlags :=
  if inUse then BlockFlags.inUse else BlockFlags.unused

/-- The blocks from one whose size word is known, and the places where memory is read
for them.  A block is in use if the header behind it could be read and says so. -/
def walkFrom (target : Target) (reads : Nat) (block heapStop sizeWord : Word) :
    List HeapBlock × List Address :=
  match _hstop : blockStop? block heapStop sizeWord with
  | none => ([], [])
  | some stop =>
    let entry (inUse : Bool) : HeapBlock :=
      ⟨⟨block⟩, statedSize sizeWord, usage inUse⟩
    if headerFits stop heapStop then
      match readSize target reads stop with
      | (.ok next, places) =>
        let rest := walkFrom target (reads + places.length) stop heapStop next
        (entry (previousInUse next) :: rest.1, places ++ rest.2)
      | (.error _, places) => ([entry false], places)
    else
      ([entry false], [])
termination_by UInt64.size - block.toNat
decreasing_by
  have hlt := lt_of_blockStop?_eq_some _hstop
  have hbound : stop.toNat < UInt64.size := stop.toNat_lt
  omega

/-- Walk a heap: its blocks, and the places where memory is read, in order.  Not being
able to read the first size word is a failure. -/
def walk (target : Target) (heapStart heapStop : Word) :
    Except MemoryError (List HeapBlock) × List Address :=
  match readSize target 0 heapStart with
  | (.ok first, places) =>
    let rest := walkFrom target places.length heapStart heapStop first
    (.ok rest.1, places ++ rest.2)
  | (.error cause, places) => (.error cause, places)

/-- The blocks of a heap. -/
def blocks (target : Target) (heapStart heapStop : Word) :
    Except MemoryError (List HeapBlock) :=
  (walk target heapStart heapStop).1

end Chunk

end MemoryProbe
