import MemoryProbe.Heap.Block

namespace MemoryProbe

/-!
Staged heap listings: heaps and blocks that are written down.
-/

/-- A heap listing that is written down.  A heap without blocks is one whose
first block cannot be had. -/
structure StagedHeaps where
  pid : UInt32 := 1
  heaps : List (HeapId × Option (List HeapBlock)) := []
  /-- Whether not even the first heap can be listed. -/
  listFails : Bool := false

namespace StagedHeaps

/-- The code of a listing that has no more entries. -/
def noMoreEntries : Int := 18

def names (staged : StagedHeaps) : Except MemoryError (List HeapId) :=
  if staged.listFails then
    .error (.snapshotFailed "heap list" noMoreEntries)
  else
    .ok (staged.heaps.map Prod.fst)

/-- The blocks of the first heap of that name. -/
def blocks (staged : StagedHeaps) (id : HeapId) :
    Except MemoryError (List HeapBlock) :=
  match staged.heaps.lookup id with
  | some (some blocks) => .ok blocks
  | _ => .error (.snapshotFailed "first heap block" noMoreEntries)

def listing (staged : StagedHeaps) : HeapListing where
  pid := staged.pid
  heaps := staged.names
  blocks := staged.blocks

end StagedHeaps

end MemoryProbe
