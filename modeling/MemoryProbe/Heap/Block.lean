import MemoryProbe.Failure

namespace MemoryProbe

/-!
Heaps and their blocks, as a heap listing gives them.
-/

/-- The name of a heap, which is a number of the target. -/
structure HeapId where
  value : Word
deriving DecidableEq, Repr, Inhabited

def HeapId.text (id : HeapId) : String :=
  "0x" ++ Text.hex id.value.toNat

/-- What is known about a block's use. -/
structure BlockFlags where
  fixed : Bool := false
  free : Bool := false
  moveable : Bool := false
deriving DecidableEq, Repr, Inhabited

namespace BlockFlags

/-- A block in use that stays where it is. -/
def inUse : BlockFlags := { fixed := true }

/-- A block that is not in use. -/
def unused : BlockFlags := { free := true }

/-- The flags named by the bits of a number; other bits do not count. -/
def ofBits (bits : Nat) : BlockFlags where
  fixed := bits.testBit 0
  free := bits.testBit 1
  moveable := bits.testBit 2

def bits (flags : BlockFlags) : Nat :=
  flags.fixed.toNat + 2 * flags.free.toNat + 4 * flags.moveable.toNat

/-- The printed form: the first flag set of free, moveable and fixed. -/
def text (flags : BlockFlags) : String :=
  if flags.free then "free"
  else if flags.moveable then "moveable"
  else if flags.fixed then "fixed"
  else "-"

/-- Writing the flags as a number loses nothing. -/
theorem ofBits_bits (flags : BlockFlags) : ofBits flags.bits = flags := by
  obtain ⟨fixed, free, moveable⟩ := flags
  revert fixed free moveable
  decide

end BlockFlags

structure HeapBlock where
  address : Address
  size : Word
  flags : BlockFlags := BlockFlags.inUse
deriving DecidableEq, Repr

/-- The heaps of a process at one moment, and the blocks of each. -/
structure HeapListing where
  pid : UInt32
  /-- The heaps in the order of the listing. -/
  heaps : Except MemoryError (List HeapId)
  /-- The blocks of a heap; a failure means that not even the first block could
  be had. -/
  blocks : HeapId -> Except MemoryError (List HeapBlock)

end MemoryProbe
