import MemoryProbe.Address
import MemoryProbe.Protection

namespace MemoryProbe

/-!
Regions: runs of pages with uniform attributes, as the region query reports
them.  A region ends before the address `stop`, which is held at the greatest
word, so the last byte of the address space belongs to no region.
-/

/-- Whether the pages of a region are backed by storage. -/
inductive RegionState where
  | committed
  | reserved
  | free
deriving DecidableEq, Repr, Inhabited

/-- What the pages of a region come from. -/
inductive RegionKind where
  | privateMemory
  | mapped
  | image
  | unspecified
deriving DecidableEq, Repr, Inhabited

/-- A contiguous run of pages with uniform attributes. -/
structure Region where
  base : Address
  size : Word
  protection : Protection
  state : RegionState
  kind : RegionKind
  /-- The lowest address of the allocation that the region is part of. -/
  allocationBase : Address
deriving DecidableEq, Repr, Inhabited

def RegionState.text : RegionState -> String
  | .committed => "Commit"
  | .reserved => "Reserve"
  | .free => "Free"

def RegionKind.text : RegionKind -> String
  | .privateMemory => "Private"
  | .mapped => "Mapped"
  | .image => "Image"
  | .unspecified => "None"

namespace Region

/-- Committed private memory that is an allocation of its own. -/
def committedPrivate (base : Address) (size : Word) (protection : Protection) :
    Region where
  base := base
  size := size
  protection := protection
  state := .committed
  kind := .privateMemory
  allocationBase := base

/-- The unused addresses from `base` on. -/
def gap (base : Address) (size : Word) : Region :=
  { committedPrivate base size Protection.none with
    state := .free
    kind := .unspecified }

/-- The first address after the region, held at the greatest word. -/
def stop (region : Region) : Address :=
  ⟨Word.saturatingAdd region.base.value region.size⟩

def contains (region : Region) (address : Address) : Bool :=
  region.base ≤ address && address < region.stop

/-- Whether the pages are backed by storage. -/
def isCommitted (region : Region) : Bool :=
  region.state == .committed

/-- Whether the region belongs to a loaded image. -/
def isImage (region : Region) : Bool :=
  region.kind == .image

/-- The printed attributes, on two lines without a final line feed. -/
def text (region : Region) : String :=
  "Base address: " ++ region.base.text
    ++ "\tAllocation base: " ++ region.allocationBase.text
    ++ "\tRegion size: 0x" ++ Text.paddedHex 8 region.size.toNat
    ++ "\nState: " ++ region.state.text
    ++ "\tProtect: " ++ region.protection.text
    ++ "\tType: " ++ region.kind.text

end Region

end MemoryProbe
