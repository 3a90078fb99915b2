import MemoryProbe.Search.Error

namespace MemoryProbe

/-!
Read buffers of a scan: one for each worker, all of one length, made before the
first read.
-/

/-- An allocation that does not fit the lower half of the address space can
never be met. -/
def allocationLimit : Nat := Nat.pow 2 47

/-- Whether so many bytes can be allocated. -/
def canAllocate (bytes : Nat) : Bool :=
  bytes < allocationLimit

/-- The buffers of the workers. -/
structure Arena where
  buffers : List (List UInt8)
  capacity : Word
deriving Repr

namespace Arena

/-- The bytes that the record of one buffer takes. -/
def recordSize : Nat := 32

/-- One zeroed buffer for each worker.  The table of buffers comes first, then
the buffers, which have to fit together; without workers any capacity will do. -/
def make (workers capacity : Word) : Except ScanError Arena :=
  if !canAllocate (workers.toNat * recordSize) then
    .error (.allocation workers)
  else if workers = 0 then
    .ok { buffers := [], capacity := capacity }
  else if !canAllocate (workers.toNat * capacity.toNat) then
    .error (.allocation capacity)
  else
    .ok
      { buffers := List.replicate workers.toNat (List.replicate capacity.toNat 0)
        capacity := capacity }

/-- The number of buffers. -/
def workers (arena : Arena) : Nat :=
  arena.buffers.length

def overwrite (buffer : List UInt8) (offset : Nat) (bytes : List UInt8) :
    List UInt8 :=
  buffer.take offset ++ bytes ++ buffer.drop (offset + bytes.length)

/-- Write into the buffer of a worker.  There has to be such a worker, and the
bytes have to fit; otherwise nothing is written. -/
def write (arena : Arena) (worker offset : Nat) (bytes : List UInt8) :
    Except Fault Arena :=
  match arena.buffers[worker]? with
  | none => .error .outOfRange
  | some buffer =>
    if offset + bytes.length ≤ buffer.length then
      .ok { arena with
        buffers := arena.buffers.set worker (overwrite buffer offset bytes) }
    else
      .error .outOfRange

end Arena

end MemoryProbe
