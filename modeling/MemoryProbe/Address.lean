import MemoryProbe.Word
import MemoryProbe.Text.Hex

namespace MemoryProbe

/-!
Addresses of the inspected process.  They are never followed here; they are
compared, moved by a number of bytes and printed.
-/

/-- An address inside the inspected process. -/
@[ext]
structure Address where
  value : Word
deriving DecidableEq, Repr, Inhabited

namespace Address

/-- Addresses are ordered by their values. -/
instance : LT Address where
  lt left right := left.value < right.value

instance : LE Address where
  le left right := left.value ≤ right.value

instance (left right : Address) : Decidable (left < right) :=
  inferInstanceAs (Decidable (left.value < right.value))

instance (left right : Address) : Decidable (left ≤ right) :=
  inferInstanceAs (Decidable (left.value ≤ right.value))

def lesser (left right : Address) : Address :=
  if right < left then right else left

def order (left right : Address) : Ordering :=
  compare left.value right.value

/-- The null address. -/
def zero : Address := ⟨0⟩

def isNull (address : Address) : Bool :=
  address.value == 0

/-- The address as an unbounded natural. -/
def toNat (address : Address) : Nat :=
  address.value.toNat

/-- The address some bytes further up, if there is one. -/
def advance? (address : Address) (bytes : Word) : Option Address :=
  (Word.add? address.value bytes).map Address.mk

/-- The address some bytes further up; passing the end of the address space is
a fault. -/
def advance (address : Address) (bytes : Word) : Except Fault Address :=
  (Word.sum address.value bytes).map Address.mk

theorem advance_eq_ok_iff {address later : Address} {bytes : Word} :
    address.advance bytes = .ok later <->
      later.toNat = address.toNat + bytes.toNat := by
  unfold advance toNat
  rw [<- Word.sum_eq_ok_iff]
  cases total : Word.sum address.value bytes with
  | error kind => simp [Except.map]
  | ok value => simp [Except.map, Address.ext_iff]

theorem advance_eq_error_iff {address : Address} {bytes : Word} {kind : Fault} :
    address.advance bytes = .error kind <->
      kind = .overflow ∧ UInt64.size ≤ address.toNat + bytes.toNat := by
  unfold advance toNat
  rw [<- Word.sum_eq_error_iff]
  cases Word.sum address.value bytes <;> simp [Except.map]

/-- The address some bytes further down; passing zero is a fault. -/
def retreat (address : Address) (bytes : Word) : Except Fault Address :=
  (Word.difference address.value bytes).map Address.mk

def since (address lower : Address) : Except Fault Word :=
  Word.difference address.value lower.value

/-- The bytes between two addresses, whichever is the higher. -/
def distance (left right : Address) : Word :=
  Word.distance left.value right.value

/-- The printed form: sixteen hexadecimal digits after `0x`. -/
def text (address : Address) : String :=
  "0x" ++ Text.paddedHex 16 address.toNat

end Address

end MemoryProbe
