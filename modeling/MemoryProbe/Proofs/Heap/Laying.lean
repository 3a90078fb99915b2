import MemoryProbe.Proofs.Heap.Walking
import MemoryProbe.Target.Staged

namespace MemoryProbe

/-!
Heaps as an allocator lays them.  Blocks lie back to back, each with a header that holds its
size and three flag bits.  A walk gives exactly the blocks that were laid; if a header is
replaced by one that has no possible size, it gives exactly the blocks before that one.
-/

/-- The header of a block: its size and its three flag bits. -/
structure BlockHeader where
  size : Word
  bits : Word
  least : 32 ≤ size.toNat
  aligned : 16 ∣ size.toNat
  small : bits.toNat < 8

namespace BlockHeader

/-- The word that the allocator writes. -/
def word (header : BlockHeader) : Word :=
  header.size ||| header.bits

/-- Whether the lowest flag is set, by which the block before is in use. -/
def previousInUse (header : BlockHeader) : Bool :=
  decide (header.bits.toNat % 2 = 1)

/-- The bytes that blocks take together. -/
def extent (headers : List BlockHeader) : Nat :=
  (headers.map fun header => header.size.toNat).sum

/-- The blocks of some headers, back to back from a place on.  A block is in use if the next
header says so; `behind` is what is said behind the last one. -/
def blocks (place : Nat) (behind : Bool) : List BlockHeader -> List HeapBlock
  | [] => []
  | header :: rest =>
    ⟨⟨UInt64.ofNat place⟩, header.size,
      if (rest.head?.map previousInUse).getD behind then BlockFlags.inUse
        else BlockFlags.unused⟩
      :: blocks (place + header.size.toNat) behind rest

end BlockHeader

/-- The eight bytes of a word, by rising significance. -/
def wordBytes (word : Word) : List UInt8 :=
  (List.range 8).map fun index => UInt8.ofNat (word.toNat / 256 ^ index)

namespace Target

/-- Every read of the word at a place answers that word. -/
def HoldsWord (target : Target) (place : Nat) (word : Word) : Prop :=
  forall (reads : Nat) (address : Address), address.toNat = place ->
    target.read reads address 8 = .ok (wordBytes word)

/-- Behind the first word of each block lies its header, back to back from a place on. -/
def Lays (target : Target) (place : Nat) : List BlockHeader -> Prop
  | [] => True
  | header :: rest =>
    target.HoldsWord (place + 8) header.word ∧ target.Lays (place + header.size.toNat) rest

end Target

theorem littleEndian_wordBytes (word : Word) :
    Chunk.littleEndian (wordBytes word) = word.toNat := by
  have bound : word.toNat < 256 ^ 8 := word.toNat_lt
  simp only [wordBytes, List.range, List.range.loop, List.map_cons, List.map_nil,
    Chunk.littleEndian, UInt8.toNat_ofNat']
  omega

/-- A word that is held is told by every read. -/
theorem Target.HoldsWord.tells {target : Target} {place : Nat} {word : Word}
    (holds : target.HoldsWord (place + 8) word) (room : place + 8 < UInt64.size) (reads : Nat) :
    target.Tells reads place word := by
  have there : (⟨UInt64.ofNat (place + 8)⟩ : Address).toNat = place + 8 :=
    UInt64.toNat_ofNat_of_lt' room
  exact ⟨_, _, there, holds reads _ there, rfl, littleEndian_wordBytes word⟩

namespace Chunk

/-- The stated size is the size word rounded down to eight. -/
theorem statedSize_toNat (sizeWord : Word) :
    (statedSize sizeWord).toNat = sizeWord.toNat / 8 * 8 := by
  have mask : (~~~flagBits).toNat = (Nat.pow 2 (64 - 3) - 1) * Nat.pow 2 3 := rfl
  unfold statedSize
  rw [UInt64.toNat_and, mask]
  exact Word.and_highBits sizeWord.toNat_lt (by decide)

theorem previousInUse_iff {sizeWord : Word} :
    previousInUse sizeWord = true <-> sizeWord.toNat % 2 = 1 := by
  have low : (sizeWord &&& 1).toNat = sizeWord.toNat % 2 := by
    rw [UInt64.toNat_and]
    exact Nat.and_one_is_mod _
  unfold previousInUse
  rw [bne_iff_ne, Ne, <- UInt64.toNat_inj, low]
  change ¬ _ = 0 <-> _
  omega

end Chunk

namespace BlockHeader

theorem word_toNat (header : BlockHeader) :
    header.word.toNat = header.size.toNat + header.bits.toNat := by
  rcases header.aligned with ⟨count, size⟩
  have multiple : header.size.toNat = 2 ^ 3 * (2 * count) := by omega
  unfold word
  rw [UInt64.toNat_or, multiple]
  exact (Nat.two_pow_add_eq_or_of_lt header.small _).symm

/-- The stated size is the one that was laid. -/
theorem statedSize_word (header : BlockHeader) : Chunk.statedSize header.word = header.size := by
  have small := header.small
  rcases header.aligned with ⟨count, size⟩
  rw [<- UInt64.toNat_inj, Chunk.statedSize_toNat, word_toNat]
  omega

theorem previousInUse_word (header : BlockHeader) :
    Chunk.previousInUse header.word = header.previousInUse := by
  rcases header.aligned with ⟨count, size⟩
  rw [Bool.eq_iff_iff, Chunk.previousInUse_iff, word_toNat, previousInUse, decide_eq_true_eq]
  omega

end BlockHeader

namespace Chunk

/-- No block at a place of a heap can have that size word: what it states is too small, not
aligned, or more than the heap has left. -/
def Impossible (heapStop : Word) (place : Nat) (sizeWord : Word) : Prop :=
  (statedSize sizeWord).toNat < 32 ∨ ¬ 16 ∣ (statedSize sizeWord).toNat ∨
    heapStop.toNat < place + (statedSize sizeWord).toNat

/-- A walk that comes to a place gives no block there, and the block before is in use if
`behind`. -/
inductive ClosesAt (target : Target) (heapStop : Word) (place : Nat) : Bool -> Prop where
  /-- The heap ends there. -/
  | wall (ends : place = heapStop.toNat) : ClosesAt target heapStop place false
  /-- There is a header of no possible size. -/
  | broken (sizeWord : Word) (fits : place + 16 ≤ heapStop.toNat)
    (holds : target.HoldsWord (place + 8) sizeWord)
    (impossible : Impossible heapStop place sizeWord) :
    ClosesAt target heapStop place (previousInUse sizeWord)

variable {target : Target} {heapStop : Word} {reads : Nat} {block sizeWord stop : Word}
  {found : List HeapBlock} {places : List Address}

theorem Impossible.not_sized (impossible : Impossible heapStop block.toNat sizeWord) :
    ¬ Sized block heapStop sizeWord stop := by
  rintro ⟨stop_eq, least, aligned, inside⟩
  rcases impossible with little | odd | wide
  · omega
  · exact odd aligned
  · omega

theorem Sized.unique {other : Word} (sized : Sized block heapStop sizeWord stop)
    (again : Sized block heapStop sizeWord other) : stop = other :=
  UInt64.toNat_inj.mp (sized.stop_eq.trans again.stop_eq.symm)

namespace Walked

theorem eq_nil_of_impossible (walked : Walked target heapStop reads block sizeWord found places)
    (impossible : Impossible heapStop block.toNat sizeWord) : found = [] := by
  cases walked with
  | halts unsized => rfl
  | ends sized outside => exact absurd sized impossible.not_sized
  | untold sized fits there silent => exact absurd sized impossible.not_sized
  | told sized fits there tells rest => exact absurd sized impossible.not_sized

/-- A block that reaches to the end of the heap is the last one and unused. -/
theorem eq_singleton (walked : Walked target heapStop reads block sizeWord found places)
    (sized : Sized block heapStop sizeWord heapStop) :
    found = [⟨⟨block⟩, statedSize sizeWord, BlockFlags.unused⟩] := by
  cases walked with
  | halts unsized => exact absurd sized (unsized _)
  | ends other outside => rfl
  | untold other fits there silent => rfl
  | told other fits there tells rest =>
      rw [other.unique sized] at fits
      omega

/-- Behind a block the walk goes on with the header that is told. -/
theorem exists_rest (walked : Walked target heapStop reads block sizeWord found places)
    (sized : Sized block heapStop sizeWord stop) (fits : stop.toNat + 16 ≤ heapStop.toNat)
    {next : Word} (tells : target.Tells reads stop.toNat next) :
    ∃ rest later,
      found = ⟨⟨block⟩, statedSize sizeWord, usage (previousInUse next)⟩ :: rest ∧
        Walked target heapStop (reads + 1) stop next rest later := by
  cases walked with
  | halts unsized => exact absurd sized (unsized stop)
  | ends other outside =>
      rw [other.unique sized] at outside
      omega
  | untold other inside there silent =>
      rw [other.unique sized] at silent
      exact absurd tells (silent next)
  | @told _ _ _ end_ after _ rest later other inside there known walked =>
      cases other.unique sized
      cases known.unique tells
      exact ⟨rest, later, rfl, walked⟩

end Walked

/-- A laid block has a possible size, as far as the heap reaches. -/
theorem exists_sized {header : BlockHeader}
    (inside : block.toNat + header.size.toNat ≤ heapStop.toNat) :
    ∃ stop, stop.toNat = block.toNat + header.size.toNat ∧
      Sized block heapStop header.word stop := by
  have limit : heapStop.toNat < UInt64.size := heapStop.toNat_lt
  have there : (UInt64.ofNat (block.toNat + header.size.toNat)).toNat =
      block.toNat + header.size.toNat := UInt64.toNat_ofNat_of_lt' (by omega)
  have size := congrArg UInt64.toNat header.statedSize_word
  refine ⟨_, there, ?_, ?_, ?_, ?_⟩
  · rw [there, size]
  · rw [size]
    exact header.least
  · rw [size]
    exact header.aligned
  · rw [there]
    exact inside

/-- A walk gives the block of a header as it was laid. -/
theorem entry_eq (block : Word) (header : BlockHeader) (flags : BlockFlags) :
    (⟨⟨block⟩, statedSize header.word, flags⟩ : HeapBlock) =
      ⟨⟨UInt64.ofNat block.toNat⟩, header.size, flags⟩ := by
  rw [header.statedSize_word, UInt64.ofNat_toNat]

/-- From a header on, the walk gives the blocks that were laid, up to where it closes. -/
theorem Walked.eq_blocks {header : BlockHeader} {headers : List BlockHeader} {behind : Bool}
    (walked : Walked target heapStop reads block header.word found places)
    (laid : target.Lays (block.toNat + header.size.toNat) headers)
    (inside : block.toNat + BlockHeader.extent (header :: headers) ≤ heapStop.toNat)
    (closes : ClosesAt target heapStop
      (block.toNat + BlockHeader.extent (header :: headers)) behind) :
    found = BlockHeader.blocks block.toNat behind (header :: headers) := by
  have limit : heapStop.toNat < UInt64.size := heapStop.toNat_lt
  induction headers generalizing header block reads found places with
  | nil =>
      have total : BlockHeader.extent [header] = header.size.toNat := Nat.add_zero _
      rw [total] at inside closes
      rcases exists_sized inside with ⟨stop, there, sized⟩
      rw [<- there] at closes
      cases closes with
      | wall ends =>
          cases UInt64.toNat_inj.mp ends
          rw [walked.eq_singleton sized, entry_eq]
          rfl
      | broken sizeWord fits holds impossible =>
          rcases walked.exists_rest sized fits (holds.tells (by omega) reads) with
            ⟨rest, later, rfl, further⟩
          rw [further.eq_nil_of_impossible impossible, entry_eq]
          rfl
  | cons next headers ih =>
      have total : BlockHeader.extent (header :: next :: headers) =
          header.size.toNat + BlockHeader.extent (next :: headers) := List.sum_cons
      have own : BlockHeader.extent (next :: headers) =
          next.size.toNat + BlockHeader.extent headers := List.sum_cons
      have least := next.least
      rw [total, <- Nat.add_assoc] at inside closes
      rcases exists_sized (Nat.le_trans (Nat.le_add_right _ _) inside) with
        ⟨stop, there, sized⟩
      rw [<- there] at laid inside closes
      rcases laid with ⟨holds, laid⟩
      have fits : stop.toNat + 16 ≤ heapStop.toNat := by omega
      rcases walked.exists_rest sized fits (holds.tells (by omega) reads) with
        ⟨rest, later, rfl, further⟩
      rw [ih further laid inside closes, entry_eq, next.previousInUse_word, there]
      rfl

section Heaps

variable {heapStart : Word} {header : BlockHeader} {headers : List BlockHeader} {behind : Bool}

/-- A heap whose first size word is told is walked from it. -/
theorem exists_walked (told : target.Tells 0 heapStart.toNat sizeWord) :
    ∃ found places, blocks target heapStart heapStop = .ok found ∧
      Walked target heapStop 1 heapStart sizeWord found places := by
  rcases walk_cases target heapStart heapStop with
    ⟨untold, -, -⟩ | ⟨known, first, found, places, tells, -, walked_eq, walked⟩
  · exact absurd told (untold _)
  · cases tells.unique told
    exact ⟨found, places, congrArg Prod.fst walked_eq, walked⟩

/-- A heap of laid blocks is walked up to where it closes. -/
theorem blocks_of_laid (laid : target.Lays heapStart.toNat (header :: headers))
    (inside : heapStart.toNat + BlockHeader.extent (header :: headers) ≤ heapStop.toNat)
    (closes : ClosesAt target heapStop
      (heapStart.toNat + BlockHeader.extent (header :: headers)) behind) :
    blocks target heapStart heapStop =
      .ok (BlockHeader.blocks heapStart.toNat behind (header :: headers)) := by
  have limit : heapStop.toNat < UInt64.size := heapStop.toNat_lt
  have least := header.least
  have total : BlockHeader.extent (header :: headers) =
      header.size.toNat + BlockHeader.extent headers := List.sum_cons
  rcases exists_walked (laid.1.tells (by omega) 0) with ⟨found, places, came, walked⟩
  rw [came, walked.eq_blocks laid.2 inside closes]

/-- A heap whose first header has no possible size gives no block. -/
theorem blocks_of_impossible {sizeWord : Word} (room : heapStart.toNat + 8 < UInt64.size)
    (holds : target.HoldsWord (heapStart.toNat + 8) sizeWord)
    (impossible : Impossible heapStop heapStart.toNat sizeWord) :
    blocks target heapStart heapStop = .ok [] := by
  rcases exists_walked (holds.tells room 0) with ⟨found, places, came, walked⟩
  rw [came, walked.eq_nil_of_impossible impossible]

end Heaps

end Chunk

/-- The blocks before a header are the same whatever comes behind it. -/
theorem BlockHeader.take_blocks (place : Nat) (behind : Bool) (before : List BlockHeader)
    (header : BlockHeader) (after : List BlockHeader) :
    (BlockHeader.blocks place behind (before ++ header :: after)).take before.length =
      BlockHeader.blocks place header.previousInUse before := by
  induction before generalizing place with
  | nil => rfl
  | cons first before ih =>
      rw [List.cons_append, BlockHeader.blocks, List.length_cons, List.take_succ_cons, ih,
        BlockHeader.blocks]
      cases before <;> rfl

namespace Chunk

/-- A heap that is laid with blocks is walked back into them: their addresses and sizes, in
order, each in use if the next header says so, the last one unused.  If one of the headers
is replaced by one of no possible size, the walk gives exactly the blocks before it; the
last of these is in use if the replacement says so, so that all are as before if it keeps
the lowest flag. -/
theorem walk_reads_layout (headers : List BlockHeader) (heapStart heapStop : Word)
    (some : headers ≠ [])
    (filled : heapStop.toNat = heapStart.toNat + BlockHeader.extent headers) :
    (forall target : Target, target.Lays heapStart.toNat headers ->
      blocks target heapStart heapStop =
        .ok (BlockHeader.blocks heapStart.toNat false headers)) ∧
    forall (before : List BlockHeader) (header : BlockHeader) (after : List BlockHeader),
      headers = before ++ header :: after ->
      forall (target : Target) (sizeWord : Word), target.Lays heapStart.toNat before ->
        target.HoldsWord (heapStart.toNat + BlockHeader.extent before + 8) sizeWord ->
        Impossible heapStop (heapStart.toNat + BlockHeader.extent before) sizeWord ->
        blocks target heapStart heapStop =
          .ok (BlockHeader.blocks heapStart.toNat (previousInUse sizeWord) before) ∧
        (previousInUse sizeWord = header.previousInUse ->
          blocks target heapStart heapStop =
            .ok ((BlockHeader.blocks heapStart.toNat false headers).take before.length)) := by
  have limit : heapStop.toNat < UInt64.size := heapStop.toNat_lt
  constructor
  · intro target laid
    cases headers with
    | nil => exact absurd rfl some
    | cons header headers =>
        exact blocks_of_laid laid (Nat.le_of_eq filled.symm) (.wall filled.symm)
  · rintro before header after rfl target sizeWord laid holds impossible
    have least := header.least
    have total : BlockHeader.extent (before ++ header :: after) =
        BlockHeader.extent before + (header.size.toNat + BlockHeader.extent after) := by
      simp only [BlockHeader.extent, List.map_append, List.sum_append, List.map_cons,
        List.sum_cons]
    have came : blocks target heapStart heapStop =
        .ok (BlockHeader.blocks heapStart.toNat (previousInUse sizeWord) before) := by
      cases before with
      | nil =>
          exact blocks_of_impossible (by omega) holds impossible
      | cons first before =>
          exact blocks_of_laid laid (by omega)
            (.broken sizeWord (by omega) holds impossible)
    refine ⟨came, fun keeps => ?_⟩
    rw [came, BlockHeader.take_blocks, keeps]

/-- A least block, behind one in use. -/
def leastHeader : BlockHeader :=
  ⟨32, 1, by decide, by decide, by decide⟩

/-- Three blocks, of which the first is in use and the second one is not. -/
def trio : List BlockHeader :=
  [leastHeader, ⟨48, 1, by decide, by decide, by decide⟩,
    ⟨32, 6, by decide, by decide, by decide⟩]

/-- A size word whose size leads beyond the end of all memory. -/
def wrappingWord : Word :=
  0xFFFFFFFFFFFFFFF1

/-- A process with a heap of three blocks of those sizes, by its three size words. -/
def trioProcess (first second third : Word) : StagedProcess :=
  let header (sizeWord : Word) : List UInt8 := List.replicate 8 0 ++ wordBytes sizeWord
  StagedProcess.withRegion {} ⟨4096⟩
    (header first ++ List.replicate 16 0 ++ header second ++ List.replicate 32 0
      ++ header third ++ List.replicate 16 0) Protection.readable

theorem trioProcess_holds (place : Word) {first second third sizeWord : Word}
    (answered : (trioProcess first second third).read ⟨place⟩ 8 = .ok (wordBytes sizeWord)) :
    (trioProcess first second third).target.HoldsWord place.toNat sizeWord := by
  intro reads address there
  cases Address.ext (UInt64.toNat_inj.mp there : address.value = place)
  exact answered

/-- The heap of three blocks is walked back into them, and with a wrapping size in the second
header into the first one, which stays in use. -/
theorem walk_reads_layout_of_trio :
    trio ≠ [] ∧ (4208 : Word).toNat = (4096 : Word).toNat + BlockHeader.extent trio ∧
    blocks (trioProcess 33 49 38).target 4096 4208 =
      .ok [⟨⟨4096⟩, 32, .inUse⟩, ⟨⟨4128⟩, 48, .unused⟩, ⟨⟨4176⟩, 32, .unused⟩] ∧
    blocks (trioProcess 33 wrappingWord 38).target 4096 4208 =
      .ok [⟨⟨4096⟩, 32, .inUse⟩] := by
  have some : trio ≠ [] := List.cons_ne_nil _ _
  have filled : (4208 : Word).toNat = (4096 : Word).toNat + BlockHeader.extent trio := by decide
  rcases walk_reads_layout trio 4096 4208 some filled with ⟨whole, broken⟩
  refine ⟨some, filled, whole _ ⟨?_, ?_, ?_, trivial⟩, ?_⟩
  · exact trioProcess_holds 4104 (by cbv)
  · exact trioProcess_holds 4136 (by cbv)
  · exact trioProcess_holds 4184 (by cbv)
  · refine (broken [leastHeader] _ _ rfl _ wrappingWord ⟨?_, trivial⟩ ?_ ?_).1
    · exact trioProcess_holds 4104 (by cbv)
    · exact trioProcess_holds 4136 (by cbv)
    · exact Or.inr (Or.inr (by decide))

end Chunk
end MemoryProbe
