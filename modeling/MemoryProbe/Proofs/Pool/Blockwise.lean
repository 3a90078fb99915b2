import MemoryProbe.Proofs.Mapping
import MemoryProbe.Proofs.Occurrences
import MemoryProbe.Proofs.Pool.Turn

namespace MemoryProbe

/-!
What comes of one block, whoever reads it, when, and into which buffer.  A read
fills the front of a buffer, and the pattern is matched there only after the block
was read in full, so nothing that an earlier block left behind is ever matched.
-/

/-- The answer to a read does not depend on the reads before it. -/
def Target.Timeless (target : Target) : Prop :=
  forall earlier later address length,
    target.read earlier address length = target.read later address length

/-- No more bytes are answered than are asked for. -/
def Target.Honest (target : Target) : Prop :=
  forall earlier address length bytes,
    target.read earlier address length = .ok bytes -> bytes.length ≤ length

/-- A reader that tells nothing about the blocks it skips. -/
def Reader.silent (reader : Reader) : Reader :=
  { reader with tellsFailures := false }

/-- The part of a block that a reader finds the pattern in: nothing of a block that
is not read in full. -/
inductive Reader.Finds (reader : Reader) (pattern : Pattern) (block : ReadBlock) :
    Option (List Address) -> Prop where
  | hits (bytes : List UInt8) (found : List Address)
    (answered : reader.target.read 0 block.start block.length.toNat = .ok bytes)
    (whole : bytes.length = block.length.toNat)
    (addresses : found.map Address.toNat =
      (pattern.occurrences bytes).map fun offset => block.start.toNat + offset) :
    reader.Finds pattern block (some found)
  | nothing
    (missed : forall bytes,
      reader.target.read 0 block.start block.length.toNat = .ok bytes ->
      bytes.length ≠ block.length.toNat) :
    reader.Finds pattern block none

namespace PoolWork

/-- Match the pattern in the bytes of a block. -/
def matchBytes (work : PoolWork) (block : ReadBlock) (bytes : List UInt8) : Handling :=
  match block.placesOf work.pattern bytes with
  | .ok hits => .matched hits
  | .error _ => .faulted

/-- What comes of a block after the answer to its read. -/
def handledAfter (work : PoolWork) (block : ReadBlock) :
    Except MemoryError (List UInt8) -> Handling
  | .error _ => .skipped
  | .ok bytes =>
    if bytes.length = block.length.toNat then work.matchBytes block bytes else .skipped

/-- What comes of a block that is read by itself. -/
def handled (work : PoolWork) (block : ReadBlock) : Handling :=
  match work.regions[block.regionIndex]? with
  | none => .faulted
  | some _ =>
    work.handledAfter block
      (work.reader.target.read 0 block.start block.length.toNat)

/-- Whether something may come of a block: it comes of the answer to some read. -/
def MayCome (work : PoolWork) (block : ReadBlock) (handling : Handling) : Prop :=
  ∃ earlier, work.handledAfter block
    (work.reader.target.read earlier block.start block.length.toNat) = handling

/-- What comes of the block with a number. -/
def handledAt (work : PoolWork) (index : Nat) : Option Handling :=
  (work.blocks[index]?).map work.handled

end PoolWork

/-- The matches of a block that was not skipped. -/
def Handling.hits? : Handling -> Option (List Address)
  | .matched hits => some hits
  | _ => none

/-- Whether some matches may be found in a block; in a skipped one there are none. -/
def PoolWork.MayFind (work : PoolWork) (block : ReadBlock) (found : List Address) : Prop :=
  ∃ handling, work.MayCome block handling ∧ handling ≠ .faulted ∧
    (handling.hits?).getD [] = found

namespace Arena

/-- What was written at the front of a buffer is what lies there. -/
theorem take_write {arena filled : Arena} {id : Nat} {bytes : List UInt8}
    (written : arena.write id 0 bytes = .ok filled) :
    ((filled.buffers[id]?).getD []).take bytes.length = bytes := by
  unfold write at written
  cases found : arena.buffers[id]? with
  | none =>
      rw [found] at written
      contradiction
  | some buffer =>
      rw [found] at written
      dsimp only at written
      split at written
      · cases written
        have inside := (List.getElem?_eq_some_iff.mp found).1
        have front : overwrite buffer 0 bytes = bytes ++ buffer.drop bytes.length := by
          unfold overwrite
          rw [List.take_zero, List.nil_append, Nat.zero_add]
        rw [List.getElem?_set_self inside, Option.getD_some, front, List.take_left]
      · contradiction

end Arena

namespace Run

variable {Cause Answer Later : Type}

/-- A run that begins with an answer goes on from there. -/
theorem bind_of_ok {part : Run Cause Answer} {rest : Answer -> Run Cause Later}
    {answer : Answer} {trace later : Trace} (answered : part trace = (.ok answer, later)) :
    (part >>= rest) trace = rest answer later := by
  change ExceptT.bindCont rest (part trace).1 (part trace).2 = _
  rw [answered]
  rfl

/-- A run that comes to an answer came to one in each of its parts. -/
theorem exists_of_bind {part : Run Cause Answer} {rest : Answer -> Run Cause Later}
    {result : Later} {trace later : Trace}
    (answered : (part >>= rest) trace = (.ok result, later)) :
    ∃ answer middle, part trace = (.ok answer, middle) ∧
      rest answer middle = (.ok result, later) := by
  change ExceptT.bindCont rest (part trace).1 (part trace).2 = _ at answered
  rcases first : part trace with ⟨stop | answer, middle⟩
  · rw [first] at answered
    cases answered
  · rw [first] at answered
    exact ⟨answer, middle, rfl, answered⟩

/-- A checked answer that a run uses is no fault. -/
theorem eq_ok_of_ofChecked {checked : Except Fault Answer} {answer : Answer}
    {trace later : Trace}
    (used : (ofChecked checked : Run Cause Answer) trace = (.ok answer, later)) :
    checked = .ok answer := by
  cases checked with
  | error kind => cases used
  | ok same =>
      cases used
      rfl

end Run

namespace ReadFailure

theorem text_failed (code : Option Int) : ∃ text, (ReadFailure.failed code).text = .ok text := by
  cases code with
  | none => exact ⟨_, rfl⟩
  | some code => exact ⟨_, rfl⟩

/-- No more bytes were read than requested, so the rest can be told. -/
theorem text_short {read : Nat} {requested : Word} (less : read ≤ requested.toNat) :
    ∃ text, (ReadFailure.short (UInt64.ofNat read) requested).text = .ok text := by
  have small : (UInt64.ofNat read).toNat = read :=
    UInt64.toNat_ofNat_of_lt' (Nat.lt_of_le_of_lt less requested.toNat_lt)
  have skipped : Word.difference requested (UInt64.ofNat read) =
      .ok (UInt64.ofNat (requested.toNat - read)) := by
    rw [Word.difference_eq_ok_iff, small, UInt64.toNat_ofNat_of_lt'
      (Nat.lt_of_le_of_lt (Nat.sub_le _ _) requested.toNat_lt)]
    omega
  unfold text
  dsimp only
  rw [skipped]
  exact ⟨_, rfl⟩

end ReadFailure

namespace Reader

/-- Telling comes to an end if the failure has a text. -/
theorem skip_ok {reader : Reader} {region : Region} {failure : ReadFailure} (trace : Trace)
    (tellable : reader.tellsFailures = true -> ∃ text, failure.text = .ok text) :
    ∃ sink, (reader.skip region failure : Run ScanError Unit) trace =
      (.ok (), { trace with diagnostics := sink }) := by
  unfold skip
  cases tells : reader.tellsFailures with
  | false => exact ⟨trace.diagnostics, rfl⟩
  | true =>
      rcases tellable tells with ⟨text, known⟩
      unfold ReadFailure.tell
      rw [known]
      rw [if_pos rfl]
      dsimp only
      split
      · exact ⟨_, rfl⟩
      · split
        · exact ⟨_, rfl⟩
        · exact ⟨_, rfl⟩

theorem skip_ne_stopped {reader : Reader} {region : Region} {failure : ReadFailure}
    {trace later : Trace} {stop : Halt ScanError}
    (tellable : ∃ text, failure.text = .ok text) :
    (reader.skip region failure : Run ScanError Unit) trace ≠ (.error stop, later) := by
  intro stopped
  rcases @skip_ok reader region failure trace fun _ => tellable with ⟨sink, told⟩
  cases told.symm.trans stopped

/-- Telling about a block leaves all but the diagnostics alone. -/
theorem skip_trace {reader : Reader} {region : Region} {failure : ReadFailure}
    {trace later : Trace} {answer : Except (Halt ScanError) Unit}
    (told : (reader.skip region failure : Run ScanError Unit) trace = (answer, later)) :
    later = { trace with diagnostics := later.diagnostics } := by
  unfold skip ReadFailure.tell at told
  split at told
  · dsimp only at told
    repeat' split at told
    all_goals
      cases told
      rfl
  · cases told
    rfl

end Reader

namespace PoolWork

variable {work : PoolWork} {block : ReadBlock}

/-- Offsets that were turned into addresses lie that far behind the block. -/
theorem map_toNat_of_advance {start : Address} {offsets : List Nat} {hits : List Address}
    (small : forall offset, offset ∈ offsets -> offset < UInt64.size)
    (answered : (offsets.mapM fun offset => start.advance (UInt64.ofNat offset)) =
      .ok hits) :
    hits.map Address.toNat = offsets.map fun offset => start.toNat + offset := by
  have pairs := mapM_eq_ok_iff.mp answered
  clear answered
  induction offsets generalizing hits with
  | nil =>
      rw [List.map_eq_nil_iff.mp pairs.symm]
      rfl
  | cons offset rest ih =>
      cases hits with
      | nil => contradiction
      | cons hit later =>
          rw [List.map_cons, List.map_cons, List.cons.injEq] at pairs
          have head := Address.advance_eq_ok_iff.mp pairs.1
          have tail := ih (fun other member => small other (List.mem_cons_of_mem _ member)) pairs.2
          rw [UInt64.toNat_ofNat_of_lt' (small offset List.mem_cons_self)] at head
          rw [List.map_cons, List.map_cons, head, tail]

theorem matchBytes_eq_matched_iff {bytes : List UInt8} {hits : List Address} :
    work.matchBytes block bytes = .matched hits <->
      block.placesOf work.pattern bytes = .ok hits := by
  unfold matchBytes
  cases block.placesOf work.pattern bytes with
  | ok found => rw [Handling.matched.injEq, Except.ok.injEq]
  | error kind => simp

theorem matchBytes_ne_skipped {bytes : List UInt8} :
    work.matchBytes block bytes ≠ .skipped := by
  unfold matchBytes
  split <;> simp

/-- The matches in the bytes of a block lie where the pattern occurs. -/
theorem map_toNat_of_matchBytes {bytes : List UInt8} {hits : List Address}
    (whole : bytes.length = block.length.toNat)
    (matched : work.matchBytes block bytes = .matched hits) :
    hits.map Address.toNat =
      (work.pattern.occurrences bytes).map fun offset => block.start.toNat + offset := by
  refine map_toNat_of_advance (fun offset member => ?_) (matchBytes_eq_matched_iff.mp matched)
  have inside := Pattern.lt_length_of_mem member
  have bound := block.length.toNat_lt
  exact Nat.lt_trans inside (whole ▸ bound)

/-- A worker that filled the front of its buffer matches exactly what it read. -/
theorem matchBuffer_eq {arena filled : Arena} {id : Nat} {bytes : List UInt8}
    (written : arena.write id 0 bytes = .ok filled)
    (whole : bytes.length = block.length.toNat) :
    Pool.matchBuffer work filled id block = work.matchBytes block bytes := by
  unfold Pool.matchBuffer
  rw [<- whole, Arena.take_write written]
  rfl

/-- A worker that has read a block tells of it, met a fault in its buffer, or goes on
with what comes of the block. -/
theorem phase_of_settles {arena filled : Arena} {id : Nat} {taken : TakenBlock}
    {region : Region} {answer : Except MemoryError (List UInt8)} {phase : WorkerPhase}
    (ends : Pool.Settles work arena id taken region answer (phase, filled)) :
    (∃ failure, phase = .telling taken region failure ∧
      work.handledAfter taken.block answer = .skipped) ∨
    phase = .releasing taken .faulted ∨
    phase = .releasing taken (work.handledAfter taken.block answer) := by
  cases ends with
  | failed cause => exact Or.inl ⟨_, rfl, rfl⟩
  | misfit bytes kind unwritten => exact Or.inr (Or.inl rfl)
  | whole bytes filled written all =>
      right
      right
      have fits : bytes.take taken.block.length.toNat = bytes :=
        List.take_of_length_le (Nat.le_of_eq all)
      rw [fits] at written
      rw [matchBuffer_eq written all, handledAfter, if_pos all]
  | short bytes filled written less =>
      refine Or.inl ⟨_, rfl, ?_⟩
      rw [handledAfter, if_neg less]

/-- A block that comes to no fault is read, and found is what is there. -/
theorem finds_of_handled (calm : work.handled block ≠ .faulted) :
    work.reader.Finds work.pattern block (work.handled block).hits? := by
  unfold handled at calm ⊢
  split at calm
  · exact absurd rfl calm
  · cases answer : work.reader.target.read 0 block.start block.length.toNat with
    | error cause =>
        refine .nothing fun bytes answered => ?_
        rw [answer] at answered
        contradiction
    | ok bytes =>
        rw [answer] at calm
        unfold handledAfter at calm ⊢
        dsimp only at calm ⊢
        by_cases whole : bytes.length = block.length.toNat
        · rw [if_pos whole] at calm ⊢
          cases found : work.matchBytes block bytes with
          | matched hits =>
              exact .hits bytes hits answer whole (map_toNat_of_matchBytes whole found)
          | skipped => exact absurd found matchBytes_ne_skipped
          | faulted => exact absurd found calm
        · rw [if_neg whole]
          refine .nothing fun other again => ?_
          rw [answer, Except.ok.injEq] at again
          exact again ▸ whole

/-- A reader that has an answer comes to what the answer amounts to. -/
theorem readBlock_eq {region : Region} {answer : Except MemoryError (List UInt8)}
    {trace : Trace}
    (asked : work.reader.target.read trace.reads block.start block.length.toNat = answer)
    (tellable : work.reader.tellsFailures = true -> work.reader.target.Honest)
    (calm : work.handledAfter block answer ≠ .faulted) :
    ∃ sink, (work.reader.readBlock work.pattern region block :
      Run ScanError (Option (List Address))) trace =
      (.ok (work.handledAfter block answer).hits?,
        { trace with reads := trace.reads + 1, diagnostics := sink }) := by
  have counted : (work.reader.target.readIn block.start block.length.toNat :
      Run ScanError _) trace = (.ok answer, { trace with reads := trace.reads + 1 }) := by
    rw [<- asked]
    rfl
  -- A skipped block is told about; the answer does not depend on how that goes.
  have skips : forall failure : ReadFailure,
      (work.reader.tellsFailures = true -> ∃ text, failure.text = .ok text) ->
      ∃ sink, (do work.reader.skip region failure; return none :
        Run ScanError (Option (List Address))) { trace with reads := trace.reads + 1 } =
        (.ok none, { trace with reads := trace.reads + 1, diagnostics := sink }) := by
    intro failure told
    rcases Reader.skip_ok { trace with reads := trace.reads + 1 } told with
      ⟨sink, skipped⟩
    refine ⟨sink, ?_⟩
    rw [Run.bind_of_ok skipped]
    rfl
  unfold Reader.readBlock
  rw [Run.bind_of_ok counted]
  cases answer with
  | error cause => exact skips _ fun _ => ReadFailure.text_failed cause.code?
  | ok bytes =>
      unfold handledAfter at calm ⊢
      dsimp only at calm ⊢
      by_cases whole : bytes.length = block.length.toNat
      · rw [if_pos whole] at calm ⊢
        rw [if_pos whole]
        cases found : work.matchBytes block bytes with
        | matched hits =>
            rw [matchBytes_eq_matched_iff] at found
            refine ⟨trace.diagnostics, ?_⟩
            rw [found]
            rfl
        | skipped => exact absurd found matchBytes_ne_skipped
        | faulted => exact absurd found calm
      · rw [if_neg whole, if_neg whole]
        exact skips _ fun tells =>
          ReadFailure.text_short (tellable tells trace.reads _ _ bytes asked)

/-- What a reader answers about a block may be found in it. -/
theorem mayFind_of_readBlock {region : Region} {result : Option (List Address)}
    {trace later : Trace}
    (answered : (work.reader.readBlock work.pattern region block :
      Run ScanError (Option (List Address))) trace = (.ok result, later)) :
    work.MayFind block (result.getD []) := by
  unfold Reader.readBlock at answered
  rcases Run.exists_of_bind answered with ⟨answer, middle, asked, rest⟩
  have read : work.reader.target.read trace.reads block.start block.length.toNat = answer := by
    cases asked
    rfl
  -- A skipped block is told about, and then there is nothing.
  have skips : forall failure : ReadFailure,
      (do work.reader.skip region failure; return none :
        Run ScanError (Option (List Address))) middle = (.ok result, later) ->
      work.handledAfter block answer = .skipped -> work.MayFind block (result.getD []) := by
    intro failure told skipped
    rcases Run.exists_of_bind told with ⟨done, _, -, nothing⟩
    cases nothing
    exact ⟨.skipped, ⟨trace.reads, read ▸ skipped⟩, by simp, rfl⟩
  cases answer with
  | error cause => exact skips _ rest rfl
  | ok bytes =>
      dsimp only at rest
      by_cases whole : bytes.length = block.length.toNat
      · rw [if_pos whole] at rest
        rcases Run.exists_of_bind rest with ⟨hits, last, found, returned⟩
        cases returned
        have matched := Run.eq_ok_of_ofChecked found
        refine ⟨.matched hits, ⟨trace.reads, ?_⟩, by simp, rfl⟩
        rw [read, handledAfter, if_pos whole]
        exact matchBytes_eq_matched_iff.mpr matched
      · rw [if_neg whole] at rest
        exact skips _ rest (if_neg whole)

theorem mayFind_of_handleBlock {result : Option (List Address)} {trace later : Trace}
    (answered : (work.reader.handleBlock work.pattern work.regions block :
      Run ScanError (Option (List Address))) trace = (.ok result, later)) :
    work.MayFind block (result.getD []) := by
  unfold Reader.handleBlock at answered
  cases there : work.regions[block.regionIndex]? with
  | none =>
      rw [there] at answered
      cases answered
  | some region =>
      rw [there] at answered
      exact mayFind_of_readBlock answered

/-- A reader that handles a block by itself comes to the same answer, at any time. -/
theorem handleBlock_eq (work : PoolWork) (timeless : work.reader.target.Timeless)
    (tellable : work.reader.tellsFailures = true -> work.reader.target.Honest)
    (calm : work.handled block ≠ .faulted) (trace : Trace) :
    ∃ sink, (work.reader.handleBlock work.pattern work.regions block :
      Run ScanError (Option (List Address))) trace =
      (.ok (work.handled block).hits?,
        { trace with reads := trace.reads + 1, diagnostics := sink }) := by
  unfold handled at calm ⊢
  unfold Reader.handleBlock
  split at calm
  · exact absurd rfl calm
  · rename_i region there
    rw [there]
    exact readBlock_eq (timeless _ _ _ _) tellable calm

/-- A silent reader handles blocks one after the other, each to its own answer. -/
theorem mapM_handleBlock_silent (timeless : work.reader.target.Timeless)
    {blocks : List ReadBlock}
    (calm : forall block, block ∈ blocks -> work.handled block ≠ .faulted) (trace : Trace) :
    (((blocks.mapM (work.reader.silent.handleBlock work.pattern work.regions)) :
      Run ScanError (List (Option (List Address)))) trace).1 =
      .ok (blocks.map fun block => (work.handled block).hits?) := by
  induction blocks generalizing trace with
  | nil => rfl
  | cons block rest ih =>
      have others := fun later => ih (fun other member =>
        calm other (List.mem_cons_of_mem _ member)) later
      rcases handleBlock_eq { work with reader := work.reader.silent } timeless
        (fun tells => absurd tells Bool.false_ne_true)
        (calm block List.mem_cons_self) trace with ⟨sink, handled⟩
      rw [List.mapM_cons, Run.bind_of_ok handled]
      rcases answered : ((rest.mapM (work.reader.silent.handleBlock work.pattern work.regions)) :
        Run ScanError (List (Option (List Address))))
        { trace with reads := trace.reads + 1, diagnostics := sink } with ⟨answer, later⟩
      have same := others { trace with reads := trace.reads + 1, diagnostics := sink }
      rw [answered] at same
      dsimp only at same
      rw [same] at answered
      rw [Run.bind_of_ok answered]
      rfl

end PoolWork
end MemoryProbe
