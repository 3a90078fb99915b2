import MemoryProbe.Proofs.Pool.Blockwise
import MemoryProbe.Proofs.Region.Reach

namespace MemoryProbe

/-!
The bytes of a process.  A memory gives the byte at each address; a process holds a
memory if its contents are those bytes and stay so.  Reads then answer with bytes of
the memory, and the pattern is found in a block exactly where it lies in the memory.
-/

/-- The byte at each address. -/
abbrev Memory : Type :=
  Nat -> UInt8

/-- Some bytes are those of a memory from a place on. -/
def Memory.Begins (memory : Memory) (place : Nat) (bytes : List UInt8) : Prop :=
  forall index byte, bytes[index]? = some byte -> memory (place + index) = byte

/-- Every answer to a read is a piece of a memory. -/
def Target.Shows (target : Target) (memory : Memory) : Prop :=
  forall earlier address length bytes, target.read earlier address length = .ok bytes ->
    memory.Begins address.toNat bytes

/-- The memory of a process of a machine stays as it is. -/
structure Machine.Steady (machine : Machine) (pid : UInt32) (memory : Memory) : Prop where
  timeless : forall earlier later address length,
    machine.readMemory pid earlier address length = machine.readMemory pid later address length
  shows : forall earlier address length bytes,
    machine.readMemory pid earlier address length = .ok bytes ->
    bytes.length ≤ length ∧ memory.Begins address.toNat bytes

/-- The contents of a process are the bytes of a memory. -/
def Inspected.Holds (memory : Memory) : Inspected -> Prop
  | .staged process => forall staged, staged ∈ process.regions ->
    memory.Begins staged.region.base.toNat staged.contents
  | .live process machine => machine.Steady process.pid memory

namespace Memory

variable {memory : Memory} {place : Nat} {bytes : List UInt8}

theorem Begins.drop (begins : memory.Begins place bytes) (offset : Nat) :
    memory.Begins (place + offset) (bytes.drop offset) := by
  intro index byte found
  rw [List.getElem?_drop] at found
  rw [Nat.add_assoc]
  exact begins (offset + index) byte found

theorem Begins.take (begins : memory.Begins place bytes) (count : Nat) :
    memory.Begins place (bytes.take count) := by
  intro index byte found
  rw [List.getElem?_take] at found
  split at found
  · exact begins index byte found
  · contradiction

/-- Of two stretches of the same bytes, the shorter one begins the longer one. -/
theorem prefix_iff {front : List UInt8} (begins : memory.Begins place bytes) :
    front <+: bytes <-> front.length ≤ bytes.length ∧ memory.Begins place front := by
  constructor
  · intro here
    refine ⟨here.length_le, fun index byte found => ?_⟩
    rcases here with ⟨rest, rfl⟩
    have inside := (List.getElem?_eq_some_iff.mp found).1
    refine begins index byte ?_
    rw [List.getElem?_append_left inside]
    exact found
  · rintro ⟨short, here⟩
    rw [List.prefix_iff_eq_take]
    refine List.ext_getElem? fun index => ?_
    rw [List.getElem?_take]
    split
    · rename_i inside
      have left := List.getElem?_eq_getElem inside
      have right := List.getElem?_eq_getElem (Nat.lt_of_lt_of_le inside short)
      rw [left, right, <- here index _ left, <- begins index _ right]
    · rename_i outside
      exact List.getElem?_eq_none (by omega)

end Memory

/-- A pattern lies at a place of a memory. -/
def Pattern.LiesAt (pattern : Pattern) (memory : Memory) (place : Nat) : Prop :=
  memory.Begins place pattern.bytes

/-- In bytes of a memory, the pattern occurs where it lies whole. -/
theorem Pattern.mem_occurrences_iff_liesAt {pattern : Pattern} {memory : Memory} {place : Nat}
    {bytes : List UInt8} (begins : memory.Begins place bytes) {offset : Nat} :
    offset ∈ pattern.occurrences bytes <->
      offset + pattern.length ≤ bytes.length ∧ pattern.LiesAt memory (place + offset) := by
  have positive : 0 < pattern.length := List.length_pos_iff.mpr pattern.nonempty
  rw [mem_occurrences, Memory.prefix_iff (begins.drop offset), List.length_drop]
  refine and_congr_left fun _ => ?_
  unfold length at positive ⊢
  omega

namespace StagedProcess

/-- A staged read copies a part of the contents of one region. -/
theorem exists_of_read {process : StagedProcess} {address : Address} {length : Nat}
    {bytes : List UInt8} (answered : process.read address length = .ok bytes) :
    ∃ staged offset count, staged ∈ process.regions ∧
      staged.region.base.toNat + offset = address.toNat ∧ count ≤ length ∧
      bytes = (staged.contents.drop offset).take count := by
  unfold StagedProcess.read at answered
  dsimp only at answered
  split at answered
  · contradiction
  · rename_i staged found
    split at answered
    · contradiction
    · cases answered
      have inside := List.find?_some found
      rw [Bool.and_eq_true, Region.contains_eq_true_iff] at inside
      exact ⟨staged, _, _, List.mem_of_find?_eq_some found, by omega, Nat.min_le_left _ _, rfl⟩

end StagedProcess

namespace Inspected

variable {memory : Memory}

/-- What is asked of a process that holds a memory is answered from it, at any time. -/
theorem Holds.reads {process : Inspected} (holds : process.Holds memory) :
    process.target.Timeless ∧ process.target.Honest ∧ process.target.Shows memory := by
  cases process with
  | staged process =>
      refine ⟨fun _ _ _ _ => rfl, ?_, ?_⟩
      · intro earlier address length bytes answered
        rcases StagedProcess.exists_of_read answered with ⟨staged, offset, count, -, -, few, rfl⟩
        exact Nat.le_trans (List.length_take_le _ _) few
      · intro earlier address length bytes answered
        rcases StagedProcess.exists_of_read answered with
          ⟨staged, offset, count, member, place, -, rfl⟩
        rw [<- place]
        exact ((holds staged member).drop offset).take count
  | live process machine =>
      have answers : forall earlier address length bytes,
          LiveProcess.readOn machine process.pid earlier address length = .ok bytes ->
          bytes.length ≤ length ∧ memory.Begins address.toNat bytes := by
        intro earlier address length bytes answered
        unfold LiveProcess.readOn at answered
        split at answered
        · cases answered
          exact ⟨Nat.zero_le _, fun index byte found => by simp at found⟩
        · cases read : machine.readMemory process.pid earlier address length with
          | error code =>
              rw [read] at answered
              contradiction
          | ok copied =>
              rw [read] at answered
              cases answered
              exact holds.shows earlier address length bytes read
      refine ⟨?_, ?_, ?_⟩
      · intro earlier later address length
        change LiveProcess.readOn machine process.pid earlier address length =
          LiveProcess.readOn machine process.pid later address length
        unfold LiveProcess.readOn
        rw [holds.timeless earlier later]
      · intro earlier address length bytes answered
        exact (answers earlier address length bytes answered).1
      · intro earlier address length bytes answered
        exact (answers earlier address length bytes answered).2

end Inspected
end MemoryProbe
