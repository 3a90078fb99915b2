import MemoryProbe.Text.Utf8

namespace MemoryProbe

/-!
Access rights of a run of pages.  Each right is a flag of its own, and the
numeric form is a sum of powers of two; bits that stand for no right are
dropped when it is read.  The permission column of the kernel's map listing is
a second, coarser form.
-/

/-- The rights and attributes of a run of pages. -/
structure Protection where
  read : Bool := false
  write : Bool := false
  execute : Bool := false
  copyOnWrite : Bool := false
  shared : Bool := false
  guard : Bool := false
  noCache : Bool := false
deriving DecidableEq, Repr, Inhabited

namespace Protection

/-- No right at all. -/
def none : Protection := {}

/-- Reading only. -/
def readable : Protection := { read := true }

/-- The rights named by the bits of a number. -/
def ofBits (bits : Nat) : Protection where
  read := bits.testBit 0
  write := bits.testBit 1
  execute := bits.testBit 2
  copyOnWrite := bits.testBit 3
  shared := bits.testBit 4
  guard := bits.testBit 5
  noCache := bits.testBit 6

/-- The number whose bits name the rights. -/
def bits (protection : Protection) : Nat :=
  protection.read.toNat + 2 * protection.write.toNat
    + 4 * protection.execute.toNat + 8 * protection.copyOnWrite.toNat
    + 16 * protection.shared.toNat + 32 * protection.guard.toNat
    + 64 * protection.noCache.toNat

/-- Whether the byte at a place is the given ASCII character. -/
def hasAt (bytes : List UInt8) (place : Nat) (character : Char) : Bool :=
  bytes[place]? == some character.toUInt8

/-- Read a permission column such as `r-xp`.  Places are counted in bytes, and
only the four expected letters at their own places count.  A private writable
mapping is copied on write. -/
def ofColumn (column : List Char) : Protection :=
  let bytes := Text.utf8Bytes column
  let write := hasAt bytes 1 'w'
  { read := hasAt bytes 0 'r'
    write := write
    execute := hasAt bytes 2 'x'
    shared := hasAt bytes 3 's'
    copyOnWrite := hasAt bytes 3 'p' && write }

/-- Guarded pages cannot be read even where reading is allowed. -/
def canRead (protection : Protection) : Bool :=
  protection.read && !protection.guard

/-- Whether writing is allowed. -/
def canWrite (protection : Protection) : Bool :=
  protection.write

/-- Whether executing is allowed. -/
def canExecute (protection : Protection) : Bool :=
  protection.execute

/-- Whether reading, writing or executing is allowed. -/
def anyAccess (protection : Protection) : Bool :=
  protection.read || protection.write || protection.execute

/-- The printed form: the permission column, then the other attributes. -/
def text (protection : Protection) : String :=
  (if protection.read then "r" else "-")
    ++ (if protection.write then "w" else "-")
    ++ (if protection.execute then "x" else "-")
    ++ (if protection.shared then "s" else "p")
    ++ (if protection.copyOnWrite then " cow" else "")
    ++ (if protection.guard then " guard" else "")
    ++ (if protection.noCache then " nocache" else "")

/-- Writing the rights as a number loses nothing. -/
theorem ofBits_bits (protection : Protection) :
    ofBits protection.bits = protection := by
  obtain ⟨read, write, execute, copyOnWrite, shared, guard, noCache⟩ := protection
  revert read write execute copyOnWrite shared guard noCache
  decide

end Protection

end MemoryProbe
