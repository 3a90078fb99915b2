namespace MemoryProbe

/-!
Byte histograms and their entropy.  A histogram counts the bytes of everything
it was given; its entropy is the Shannon entropy of the byte frequencies, in
bits for each byte.
-/

def byteValues : Nat := 256

theorem toNat_lt_byteValues (byte : UInt8) : byte.toNat < byteValues :=
  byte.toNat_lt

/-- How often each byte value occurred. -/
structure Histogram where
  counts : Vector Nat byteValues
  total : Nat
deriving DecidableEq

namespace Histogram

/-- Nothing counted yet. -/
def empty : Histogram where
  counts := Vector.replicate byteValues 0
  total := 0

/-- How often a byte value occurred. -/
def count (histogram : Histogram) (byte : UInt8) : Nat :=
  have h := toNat_lt_byteValues byte
  histogram.counts[byte.toNat]

def countByte (counts : Vector Nat byteValues) (byte : UInt8) :
    Vector Nat byteValues :=
  have h := toNat_lt_byteValues byte
  counts.set byte.toNat (counts[byte.toNat] + 1)

/-- Count some bytes. -/
def add (histogram : Histogram) (bytes : List UInt8) : Histogram where
  counts := bytes.foldl countByte histogram.counts
  total := histogram.total + bytes.length

/-- Whether nothing was counted. -/
def isEmpty (histogram : Histogram) : Bool :=
  histogram.total == 0

/-- The part of one byte value in the entropy. -/
def term (total : Float) (count : Nat) : Float :=
  let share := count.toFloat / total
  (-share) * share.log2

/-- Bits for each byte, between zero and eight; zero when nothing was counted.
The sum starts from negative zero, so a histogram of one byte value only has
the entropy negative zero, which the bounds let pass. -/
def entropy (histogram : Histogram) : Float :=
  if histogram.total = 0 then
    0.0
  else
    let total := histogram.total.toFloat
    let counted := histogram.counts.toList.filter fun count => count != 0
    let sum := counted.foldl (fun sum count => sum + term total count) (-0.0)
    if sum < 0.0 then 0.0 else if 8.0 < sum then 8.0 else sum

theorem getElem_countByte (counts : Vector Nat byteValues) (first byte : UInt8)
    (h : byte.toNat < byteValues) :
    (countByte counts first)[byte.toNat] =
      counts[byte.toNat] + if first == byte then 1 else 0 := by
  unfold countByte
  rw [Vector.getElem_set]
  by_cases heq : first = byte
  · subst heq
    simp
  · have hne : first.toNat ≠ byte.toNat := fun hnat => heq (UInt8.toNat_inj.mp hnat)
    simp [heq, hne]

theorem count_add (histogram : Histogram) (bytes : List UInt8) (byte : UInt8) :
    (histogram.add bytes).count byte = histogram.count byte + bytes.count byte := by
  have h := toNat_lt_byteValues byte
  suffices hfold : ∀ counts : Vector Nat byteValues,
      (bytes.foldl countByte counts)[byte.toNat] = counts[byte.toNat] + bytes.count byte
    from hfold histogram.counts
  induction bytes with
  | nil => simp
  | cons first rest ih =>
    intro counts
    rw [List.foldl_cons, ih, getElem_countByte counts first byte h, List.count_cons]
    omega

end Histogram

end MemoryProbe
