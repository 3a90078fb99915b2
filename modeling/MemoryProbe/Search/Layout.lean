import MemoryProbe.Word.Alignment
import MemoryProbe.Region
import MemoryProbe.Search.Error

namespace MemoryProbe

/-!
Cutting regions into blocks.  A full block is one block size and an overlap
long, and the next block starts one block size later, so that a pattern of at
most one byte more than the overlap lies whole in some block.
-/

/-- A bounded read of part of a region. -/
structure ReadBlock where
  start : Address
  length : Word
  /-- The index of the region in the list that was planned. -/
  regionIndex : Nat
deriving DecidableEq, Repr

namespace ReadBlock

/-- The first address after the block. -/
def stop (block : ReadBlock) : Except Fault Address :=
  block.start.advance block.length

end ReadBlock

/-- How regions are cut. -/
structure BlockLayout where
  blockSize : Word
  overlap : Word
  blockSize_pos : 0 < blockSize.toNat
  full_lt : blockSize.toNat + overlap.toNat < UInt64.size
deriving Repr

namespace BlockLayout

/-- Overlaps are multiples of this many bytes. -/
def overlapAlignment : Word := 16

/-- The layout for patterns of a given length: blocks of `factor` times the
granularity, which has to be a power of two. -/
def make (granularity factor patternLength : Word) :
    Except (Halt ScanError) BlockLayout :=
  if patternLength = 0 then
    .error (.failure .emptyPattern)
  else if !Word.isPowerOfTwo granularity then
    .error (.failure (.invalidLayout (.granularity granularity)))
  else if factor = 0 then
    .error (.failure (.invalidLayout .noFactor))
  else
    match Word.mul? granularity factor with
    | none => .error (.failure (.invalidLayout .overflow))
    | some blockSize => do
      let overlap <- Word.alignUp patternLength overlapAlignment
      if h : 0 < blockSize.toNat ∧ blockSize.toNat + overlap.toNat < UInt64.size then
        return ⟨blockSize, overlap, h.1, h.2⟩
      else
        throw (.failure (.invalidLayout .overflow))

/-- The length of a full block, the longest of the layout. -/
def fullLength (layout : BlockLayout) : Word :=
  layout.blockSize + layout.overlap

theorem blockSize_le_fullLength (layout : BlockLayout) :
    layout.blockSize.toNat ≤ layout.fullLength.toNat := by
  unfold fullLength
  rw [UInt64.toNat_add, Nat.mod_eq_of_lt layout.full_lt]
  omega

/-- Cut what remains of a region from an offset on, behind the blocks cut
before.  What is shorter than a full block is a block of its own. -/
def cutFrom (layout : BlockLayout) (base : Address) (regionIndex : Nat)
    (offset remaining : Word) (cut : List ReadBlock) :
    Except Fault (List ReadBlock) :=
  if remaining = 0 then
    .ok cut.reverse
  else
    match base.advance offset with
    | .error kind => .error kind
    | .ok start =>
      match Word.sum offset layout.blockSize with
      | .error kind => .error kind
      | .ok next =>
        if layout.fullLength ≤ remaining then
          cutFrom layout base regionIndex next (remaining - layout.blockSize)
            (⟨start, layout.fullLength, regionIndex⟩ :: cut)
        else
          .ok (⟨start, remaining, regionIndex⟩ :: cut).reverse
termination_by remaining.toNat
decreasing_by
  rename_i hfull
  have hfit : layout.fullLength.toNat ≤ remaining.toNat := hfull
  have hle : layout.blockSize.toNat ≤ remaining.toNat :=
    Nat.le_trans layout.blockSize_le_fullLength hfit
  have hpos := layout.blockSize_pos
  rw [UInt64.toNat_sub_of_le _ _ hle]
  omega

/-- Cut one region into blocks, in the order of their addresses. -/
def split (layout : BlockLayout) (region : Region) (regionIndex : Nat) :
    Except Fault (List ReadBlock) :=
  layout.cutFrom region.base regionIndex 0 region.size []

/-- Cut every region; each block knows its region by its index. -/
def plan (layout : BlockLayout) (regions : List Region) :
    Except Fault (List ReadBlock) := do
  let parts <- regions.zipIdx.mapM fun entry => layout.split entry.1 entry.2
  return parts.flatten

end BlockLayout

/-- The length of the longest block, if there is a block. -/
def longestBlock? (blocks : List ReadBlock) : Option Word :=
  (blocks.map ReadBlock.length).max?

end MemoryProbe
