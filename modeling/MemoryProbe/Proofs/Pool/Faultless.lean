import MemoryProbe.Proofs.Pool.Outcome
import MemoryProbe.Proofs.Search.Cutting

namespace MemoryProbe

/-!
Work without faults.  If the answers of the target fit what is asked for, the
blocks lie in regions that exist and in the address space, and the buffers of all
workers fit together, then no worker meets a fault, whatever the schedule.
-/

/-- Blocks that can be read without a fault. -/
structure PoolWork.Sound (work : PoolWork) : Prop where
  timeless : work.reader.target.Timeless
  honest : work.reader.target.Honest
  valid : forall block, block ∈ work.blocks ->
    ∃ region, work.regions[block.regionIndex]? = some region
  inside : forall block, block ∈ work.blocks ->
    block.start.toNat + block.length.toNat < UInt64.size

namespace Arena

/-- What it takes to have made buffers for some workers. -/
theorem make_eq_ok {workers capacity : Word} {arena : Arena} (manned : workers ≠ 0)
    (made : Arena.make workers capacity = .ok arena) :
    arena.buffers = List.replicate workers.toNat (List.replicate capacity.toNat 0) ∧
      workers.toNat * capacity.toNat < allocationLimit := by
  unfold make at made
  split at made
  · contradiction
  · split at made
    · contradiction
    · rename_i fits
      cases made
      refine ⟨rfl, ?_⟩
      simpa [canAllocate] using fits

/-- There is a buffer of at least some length for each of so many workers. -/
structure Serves (arena : Arena) (workers least : Nat) : Prop where
  length_eq : arena.buffers.length = workers
  roomy : forall buffer, buffer ∈ arena.buffers -> least ≤ buffer.length

theorem serves_of_make {workers capacity : Word} {arena : Arena} (manned : workers ≠ 0)
    (made : Arena.make workers capacity = .ok arena) :
    arena.Serves workers.toNat capacity.toNat := by
  have buffers := (make_eq_ok manned made).1
  refine ⟨?_, fun buffer member => ?_⟩
  · rw [buffers, List.length_replicate]
  · rw [buffers] at member
    rw [List.eq_of_mem_replicate member, List.length_replicate]

namespace Serves

variable {arena filled : Arena} {workers least id : Nat} {bytes : List UInt8}
  (serves : arena.Serves workers least)

include serves

/-- Bytes that are no more than a buffer holds can be written. -/
theorem exists_write (there : id < workers) (short : bytes.length ≤ least) :
    ∃ filled, arena.write id 0 bytes = .ok filled := by
  have found := List.getElem?_eq_getElem (serves.length_eq.symm ▸ there)
  have room := serves.roomy _ (List.mem_of_getElem? found)
  unfold Arena.write
  rw [found]
  dsimp only
  rw [if_pos (by omega)]
  exact ⟨_, rfl⟩

/-- No write changes the number of the buffers or the length of one. -/
theorem write (written : arena.write id 0 bytes = .ok filled) : filled.Serves workers least := by
  unfold Arena.write at written
  split at written
  · contradiction
  · rename_i found
    split at written
    · rename_i fits
      have room := serves.roomy _ (List.mem_of_getElem? found)
      cases written
      refine ⟨(List.length_set ..).trans serves.length_eq, fun buffer member => ?_⟩
      rcases List.mem_or_eq_of_mem_set member with old | new
      · exact serves.roomy buffer old
      · rw [new, overwrite]
        simp only [List.length_append, List.length_take, List.length_drop]
        omega
    · contradiction

end Serves

end Arena

namespace PoolWork

variable {work : PoolWork} {block : ReadBlock}

/-- Addresses that do not pass the end of the address space can be formed. -/
theorem exists_advance {start : Address} {offsets : List Nat} {length : Nat}
    (inside : start.toNat + length < UInt64.size)
    (short : forall offset, offset ∈ offsets -> offset < length) :
    ∃ hits, (offsets.mapM fun offset => start.advance (UInt64.ofNat offset)) = .ok hits := by
  refine exists_mapM fun offset member => ?_
  have less := short offset member
  refine ⟨⟨UInt64.ofNat (start.toNat + offset)⟩, Address.advance_eq_ok_iff.mpr ?_⟩
  unfold Address.toNat at inside ⊢
  rw [UInt64.toNat_ofNat_of_lt' (by omega), UInt64.toNat_ofNat_of_lt' (by omega)]

theorem Sound.matchBytes_ne_faulted (sound : work.Sound) (member : block ∈ work.blocks)
    {bytes : List UInt8} (whole : bytes.length = block.length.toNat) :
    work.matchBytes block bytes ≠ .faulted := by
  rcases exists_advance (sound.inside block member) (fun offset listed =>
    whole ▸ Pattern.lt_length_of_mem listed) with ⟨hits, found⟩
  rw [matchBytes_eq_matched_iff.mpr found]
  simp

theorem Sound.handled_ne_faulted (sound : work.Sound) (member : block ∈ work.blocks) :
    work.handled block ≠ .faulted := by
  rcases sound.valid block member with ⟨region, there⟩
  unfold handled handledAfter
  rw [there]
  dsimp only
  split
  · simp
  · split
    · rename_i whole
      exact sound.matchBytes_ne_faulted member whole
    · simp

/-- A phase of a worker that has met no fault and works on a block of the list. -/
def Sane (work : PoolWork) : WorkerPhase -> Prop
  | .reserving taken => taken.block ∈ work.blocks
  | .asleep taken => taken.block ∈ work.blocks
  | .reading taken => taken.block ∈ work.blocks
  | .telling taken _ failure =>
    taken.block ∈ work.blocks ∧ ∃ text, failure.text = .ok text
  | .releasing taken handling => taken.block ∈ work.blocks ∧ handling ≠ .faulted
  | .waking taken handling => taken.block ∈ work.blocks ∧ handling ≠ .faulted
  | .recording taken handling => taken.block ∈ work.blocks ∧ handling ≠ .faulted
  | .faulted => False
  | _ => True

theorem sane_awaken {phase : WorkerPhase} (sane : work.Sane phase) : work.Sane phase.awaken := by
  cases phase <;> exact sane

theorem heldBytes_le_of_sane {phase : WorkerPhase} {longest : Nat}
    (fits : forall block, block ∈ work.blocks -> block.length.toNat ≤ longest)
    (sane : work.Sane phase) : phase.heldBytes ≤ longest := by
  cases phase with
  | reading taken => exact fits _ sane
  | telling taken region failure => exact fits _ sane.1
  | releasing taken handling => exact fits _ sane.1
  | _ => exact Nat.zero_le _

end PoolWork

namespace Pool

section Buffers

variable {work : PoolWork} {pool after : Pool} {before phase : WorkerPhase}
  {id workers least : Nat}

/-- A pool begins with a buffer for the longest block for each of its workers. -/
theorem serves_start {workers : Word} {budget : Budget} {trace : Trace} (manned : workers ≠ 0)
    (started : Pool.start work workers budget trace = .ok pool) :
    pool.arena.Serves pool.workers.length ((longestBlock? work.blocks).getD 0).toNat := by
  rcases exists_arena_of_start started with ⟨arena, made, rfl⟩
  rw [List.length_replicate]
  exact Arena.serves_of_make manned made

/-- However a read ends, the buffers do as well as before. -/
theorem Settles.serves {arena filled : Arena} {taken : TakenBlock} {region : Region}
    {answer : Except MemoryError (List UInt8)}
    (ends : Settles work arena id taken region answer (phase, filled))
    (serves : arena.Serves workers least) : filled.Serves workers least := by
  cases ends with
  | failed cause => exact serves
  | misfit bytes kind unwritten => exact serves
  | whole bytes filled written all => exact serves.write written
  | short bytes filled written less => exact serves.write written

theorem Turn.serves (turn : Turn work pool id before after phase)
    (serves : pool.arena.Serves workers least) : after.arena.Serves workers least := by
  cases turn with
  | read taken region answer phase filled there asked ends => exact ends.serves serves
  | _ => exact serves

end Buffers

/-- No worker has met a fault, and each has a buffer for the longest block. -/
structure Faultless (work : PoolWork) (longest : Nat) (pool : Pool) : Prop where
  sane : forall worker, worker ∈ pool.workers -> work.Sane worker.phase
  equipped : pool.arena.buffers.length = pool.workers.length
  roomy : forall buffer, buffer ∈ pool.arena.buffers -> longest ≤ buffer.length

namespace Faultless

variable {work : PoolWork} {longest : Nat} {pool next : Pool} {id : Nat} {ceiling : Word}

variable {worker : Worker} {before phase : WorkerPhase} {after : Pool}

/-- What the others hold leaves room for one more block. -/
theorem used_add_lt (faultless : Faultless work longest pool)
    (watched : Watched ceiling pool)
    (fits : forall block, block ∈ work.blocks -> block.length.toNat ≤ longest)
    (room : pool.workers.length * longest < UInt64.size) {taken : TakenBlock}
    (found : pool.workers[id]? = some worker) (reserving : worker.phase = .reserving taken) :
    pool.budget.used.toNat + taken.block.length.toNat < UInt64.size := by
  have own := faultless.sane worker (List.mem_of_getElem? found)
  rw [reserving] at own
  exact watched.used_add_lt
    (fun other member => PoolWork.heldBytes_le_of_sane fits (faultless.sane other member))
    room found (by rw [reserving]; rfl) (fits _ own)

theorem serves (faultless : Faultless work longest pool) :
    pool.arena.Serves pool.workers.length longest :=
  ⟨faultless.equipped, faultless.roomy⟩

/-- A read fits the buffer and comes to no fault. -/
theorem settles (faultless : Faultless work longest pool) (sound : work.Sound)
    (fits : forall block, block ∈ work.blocks -> block.length.toNat ≤ longest)
    {taken : TakenBlock} {region : Region} {answer : Except MemoryError (List UInt8)}
    {filled : Arena} (here : id < pool.workers.length) (member : taken.block ∈ work.blocks)
    (asked : work.reader.target.read pool.trace.reads taken.block.start
      taken.block.length.toNat = answer)
    (ends : Settles work pool.arena id taken region answer (phase, filled)) :
    work.Sane phase := by
  cases ends with
  | failed cause => exact ⟨member, ReadFailure.text_failed cause.code?⟩
  | misfit bytes kind unwritten =>
      have short := List.length_take_le taken.block.length.toNat bytes
      rcases faultless.serves.exists_write here (Nat.le_trans short (fits _ member)) with
        ⟨filled, written⟩
      cases written.symm.trans unwritten
  | whole bytes filled written all =>
      have whole : bytes.take taken.block.length.toNat = bytes :=
        List.take_of_length_le (Nat.le_of_eq all)
      rw [whole] at written
      rw [PoolWork.matchBuffer_eq written all]
      exact ⟨member, sound.matchBytes_ne_faulted member all⟩
  | short bytes filled written less =>
      exact ⟨member, ReadFailure.text_short (sound.honest _ _ _ _ asked)⟩

/-- The phase that a worker enters is as sane as the one it leaves. -/
theorem sane_phase (faultless : Faultless work longest pool) (watched : Watched ceiling pool)
    (sound : work.Sound)
    (fits : forall block, block ∈ work.blocks -> block.length.toNat ≤ longest)
    (room : pool.workers.length * longest < UInt64.size)
    (turn : Turn work pool id before after phase)
    (found : pool.workers[id]? = some worker) (leaves : worker.phase = before) :
    work.Sane phase := by
  have inside := (List.getElem?_eq_some_iff.mp found).1
  have earlier : work.Sane before :=
    leaves ▸ faultless.sane worker (List.mem_of_getElem? found)
  cases turn with
  | take block there => exact List.mem_of_getElem? there
  | overflow taken beyond =>
      have less := faultless.used_add_lt watched fits room found leaves
      omega
  | sleep taken narrow full => exact earlier
  | reserve taken used total fit => exact earlier
  | miss taken missing =>
      rcases sound.valid taken.block earlier with ⟨region, there⟩
      rw [there] at missing
      contradiction
  | read taken region answer phase filled there asked ends =>
      exact faultless.settles sound fits inside earlier asked ends
  | tell taken region failure trace told => exact ⟨earlier.1, by simp⟩
  | mistell taken region failure stop trace told =>
      exact absurd told (Reader.skip_ne_stopped earlier.2)
  | release taken handling => exact earlier
  | wake taken handling whole => exact earlier
  | wakeFaulted taken => exact absurd rfl earlier.2
  | recordFault taken => exact absurd rfl earlier.2
  | _ => trivial

/-- No step brings a fault. -/
theorem step (faultless : Faultless work longest pool) (watched : Watched ceiling pool)
    (sound : work.Sound)
    (fits : forall block, block ∈ work.blocks -> block.length.toNat ≤ longest)
    (room : pool.workers.length * longest < UInt64.size)
    (stepped : pool.step work id = some next) : Faultless work longest next := by
  rcases turn_of_step stepped with ⟨worker, before, after, phase, found, leaves, turn, rfl⟩
  have entered := faultless.sane_phase watched sound fits room turn found leaves
  have serves := turn.serves faultless.serves
  have sane := turn.forall_next found work.Sane (fun _ => PoolWork.sane_awaken)
    faultless.sane entered
  refine ⟨sane, ?_, serves.roomy⟩
  rw [length_enter, turn.length_after]
  exact serves.length_eq

theorem start {workers : Word} {budget : Budget} {trace : Trace} (manned : workers ≠ 0)
    (started : Pool.start work workers budget trace = .ok pool) :
    Faultless work ((longestBlock? work.blocks).getD 0).toNat pool ∧
      pool.workers.length * ((longestBlock? work.blocks).getD 0).toNat < UInt64.size := by
  have serves := serves_start manned started
  rcases exists_arena_of_start started with ⟨arena, made, rfl⟩
  have total := (Arena.make_eq_ok manned made).2
  have limit : allocationLimit < UInt64.size := by decide
  refine ⟨⟨fun worker member => ?_, serves.length_eq, serves.roomy⟩, ?_⟩
  · rw [List.eq_of_mem_replicate member]
    trivial
  · rw [List.length_replicate]
    exact Nat.lt_trans total limit

/-- Sound work brings no worker a fault. -/
theorem faultedWorkers_eq_nil {workers ceiling : Word} {trace : Trace} {first last : Pool}
    (manned : workers ≠ 0) (sound : work.Sound)
    (started : Pool.start work workers { ceiling := ceiling } trace = .ok first)
    (reached : first.Leads work last) : last.faultedWorkers = [] := by
  rcases reached with ⟨schedule, followed⟩
  rcases start manned started with ⟨faultless, room⟩
  have kept := follow_induction
    (fun pool => Watched ceiling pool ∧ pool.workers.length = first.workers.length ∧
      Faultless work ((longestBlock? work.blocks).getD 0).toNat pool)
    (by
      rintro pool id next ⟨watched, same, faultless⟩ stepped
      exact ⟨watched.step stepped, (step_length stepped).trans same,
        faultless.step watched sound (fun block member => le_longestBlock member)
          (same ▸ room) stepped⟩)
    ⟨Watched.start rfl started, rfl, faultless⟩ followed
  unfold faultedWorkers
  refine List.filter_eq_nil_iff.mpr fun id listed => ?_
  rw [List.mem_range] at listed
  have found := List.getElem?_eq_getElem listed
  have sane := kept.2.2.sane _ (List.mem_of_getElem? found)
  rw [found, Option.any_some]
  intro faulted
  rw [beq_iff_eq.mp faulted] at sane
  exact sane

end Faultless
end Pool
end MemoryProbe
