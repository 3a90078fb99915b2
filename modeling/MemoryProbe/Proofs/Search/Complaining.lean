import MemoryProbe.Proofs.Pool.Blockwise
import MemoryProbe.Proofs.Reciting

namespace MemoryProbe

/-!
Complaints about blocks that were not read in full.  A complaint names the region of its own
block, and the error code of the read or the bytes that are missing.  A reader that tells, into
a receiver that takes all, leaves one whole complaint there for each such block.
-/

/-! ## What is told -/

/-- The lines about a region at the head of a message. -/
def Target.heading (target : Target) (region : Region) : String :=
  String.join (region.header (target.regionModule region))

/-- The message about a block of a region by the answer to its read; nothing if the block was
read in full. -/
def Target.complaint? (target : Target) (region : Region) (block : ReadBlock) :
    Except MemoryError (List UInt8) -> Option String
  | .error cause =>
    match cause.code? with
    | some code =>
      some (target.heading region ++
        ("Failed reading process memory. Error code: " ++ toString code ++ "\n\n"))
    | none => some (target.heading region ++ "Failed reading process memory.\n\n")
  | .ok bytes =>
    if bytes.length = block.length.toNat then
      none
    else
      some (target.heading region ++
        ("Process memory not read in its entirety! 0x" ++
          Text.hex (block.length.toNat - bytes.length) ++ " bytes skipped out of 0x" ++
          Text.hex block.length.toNat ++ "\n\n"))

namespace PoolWork

/-- The message about the block with a number, if it is read behind some other reads. -/
def complaintAt? (work : PoolWork) (earlier index : Nat) : Option String := do
  let block <- work.blocks[index]?
  let region <- work.regions[block.regionIndex]?
  work.reader.target.complaint? region block
    (work.reader.target.read earlier block.start block.length.toNat)

/-- The messages about blocks that are read one after the other, behind some other reads. -/
def complaints (work : PoolWork) (earlier : Nat) : List Nat -> List String
  | [] => []
  | index :: rest =>
    (work.complaintAt? earlier index).toList ++ work.complaints (earlier + 1) rest

/-- The block that is read last is complained about last. -/
theorem complaints_concat (work : PoolWork) (earlier : Nat) (asked : List Nat) (index : Nat) :
    work.complaints earlier (asked ++ [index]) =
      work.complaints earlier asked ++
        (work.complaintAt? (earlier + asked.length) index).toList := by
  induction asked generalizing earlier with
  | nil => exact List.append_nil _
  | cons first rest ih =>
      have place : earlier + 1 + rest.length = earlier + (first :: rest).length := by
        rw [List.length_cons]
        omega
      rw [List.cons_append, complaints, complaints, ih, List.append_assoc, place]

/-- The messages that reading some blocks left in the receiver: one for each block that was read
but not in full, in some order.  No block was read twice, and nothing else was read. -/
structure Tells (work : PoolWork) (begun : Trace) (asked : List Nat) (told : List String)
    (later : Trace) : Prop where
  reads_eq : later.reads = begun.reads + asked.length
  text_eq : later.diagnostics.text = begun.diagnostics.text ++ String.join told
  each : told.Perm (work.complaints begun.reads asked)
  once : asked.Nodup
  planned : forall index, index ∈ asked -> index < work.blocks.length

/-- Where nothing was read, nothing is told. -/
theorem tells_nothing (work : PoolWork) (begun : Trace) : work.Tells begun [] [] begun where
  reads_eq := rfl
  text_eq := String.append_empty.symm
  each := .nil
  once := List.nodup_nil
  planned _ member := absurd member List.not_mem_nil

end PoolWork

namespace ReadFailure

/-- A failure has a text. -/
def Legible (failure : ReadFailure) : Prop :=
  ∃ text, failure.text = .ok text

variable {target : Target} {region : Region} {block : ReadBlock}

theorem complaint?_of_error (cause : MemoryError) :
    ∃ text, (ReadFailure.failed cause.code?).text = .ok text ∧
      target.complaint? region block (.error cause) = some (target.heading region ++ text) := by
  unfold Target.complaint?
  dsimp only
  cases cause.code? with
  | none => exact ⟨_, rfl, rfl⟩
  | some code => exact ⟨_, rfl, rfl⟩

/-- The bytes that are missing are no fewer than none, so they can be told. -/
theorem complaint?_of_short {bytes : List UInt8} (fits : bytes.length ≤ block.length.toNat)
    (less : bytes.length ≠ block.length.toNat) :
    ∃ text, (ReadFailure.short (UInt64.ofNat bytes.length) block.length).text = .ok text ∧
      target.complaint? region block (.ok bytes) = some (target.heading region ++ text) := by
  have bound := block.length.toNat_lt
  have small : (UInt64.ofNat bytes.length).toNat = bytes.length :=
    UInt64.toNat_ofNat_of_lt' (Nat.lt_of_le_of_lt fits bound)
  have rest : (UInt64.ofNat (block.length.toNat - bytes.length)).toNat =
      block.length.toNat - bytes.length :=
    UInt64.toNat_ofNat_of_lt' (Nat.lt_of_le_of_lt (Nat.sub_le _ _) bound)
  have skipped : Word.difference block.length (UInt64.ofNat bytes.length) =
      .ok (UInt64.ofNat (block.length.toNat - bytes.length)) := by
    rw [Word.difference_eq_ok_iff, small, rest]
    omega
  unfold Target.complaint? text
  dsimp only
  rw [skipped, if_neg less]
  refine ⟨_, rfl, ?_⟩
  rw [rest]

end ReadFailure

/-! ## Telling -/

/-- A sink that takes all takes texts one after the other. -/
theorem Sink.writeAll_of_takesAll {sink : Sink} (takes : sink.TakesAll) (texts : List String) :
    ∃ taken : Sink, sink.writeAll texts = (true, taken) ∧ taken.TakesAll ∧
      taken.text = sink.text ++ String.join texts := by
  rw [writeAll_eq, <- additions_write]
  exact askAll_of_takesAll takes _

namespace Reader

variable {reader : Reader} {region : Region} {failure : ReadFailure} {text : String}
  {trace : Trace}

/-- A reader that tells leaves one message in a receiver that takes all. -/
theorem skip_of_takesAll (tells : reader.tellsFailures = true)
    (known : failure.text = .ok text) (takes : trace.diagnostics.TakesAll) :
    ∃ drain : Sink, (reader.skip region failure : Run ScanError Unit) trace =
        (.ok (), { trace with diagnostics := drain }) ∧
      drain.TakesAll ∧
      drain.text = trace.diagnostics.text ++ (reader.target.heading region ++ text) := by
  rcases Sink.writeAll_of_takesAll takes (region.header (reader.target.regionModule region)) with
    ⟨titled, all, stays, headed⟩
  have met := Sink.ask_of_accepts (stays titled.requests titled.text.utf8ByteSize (.write text))
  unfold skip ReadFailure.tell
  rw [if_pos tells, all]
  dsimp only
  rw [known]
  dsimp only
  rw [met]
  have flushed := @Sink.ask_of_accepts { titled with
      requests := titled.requests + 1
      text := titled.text ++ text } .flush (stays _ _ .flush)
  dsimp only [Sink.addition]
  rw [flushed]
  refine ⟨_, rfl, stays, ?_⟩
  dsimp only [Sink.addition]
  rw [String.append_empty, headed, String.append_assoc]
  rfl

end Reader

/-! ## One reader -/

/-- Blocks come to an outcome only without a fault and without a refusal. -/
theorem ReadTally.of_outcome_eq_ok {tally : ReadTally} {workers : Nat} {outcome : ReadOutcome}
    (came : tally.outcome workers = .ok outcome) :
    tally.faults = 0 ∧ tally.refusal = none ∧ outcome.failedBlocks = tally.failedBlocks := by
  unfold ReadTally.outcome at came
  split at came
  · rename_i calm
    split at came
    · cases came
    · rename_i admitted
      cases came
      exact ⟨calm, admitted, rfl⟩
  · cases came
  · cases came

/-- One read, with the message about it: the receiver holds the message afterwards, and the
block counts as skipped exactly if there is one. -/
structure Complains (complaint : Option String) (begun : Trace)
    (answer : Except (Halt ScanError) (Option (List Address))) (later : Trace) : Prop where
  trace_eq : later =
    { begun with
      reads := begun.reads + 1
      diagnostics := later.diagnostics }
  takes : later.diagnostics.TakesAll
  text_eq : later.diagnostics.text = begun.diagnostics.text ++ String.join complaint.toList
  counted : forall handled, answer = .ok handled -> (handled = none <-> complaint ≠ none)

namespace PoolWork

variable {work : PoolWork} {block : ReadBlock} {region : Region} {index : Nat} {trace : Trace}

theorem complaintAt?_eq (here : work.blocks[index]? = some block)
    (there : work.regions[block.regionIndex]? = some region) (earlier : Nat) :
    work.complaintAt? earlier index = work.reader.target.complaint? region block
      (work.reader.target.read earlier block.start block.length.toNat) := by
  unfold complaintAt?
  rw [here, Option.bind_eq_bind, Option.bind_some, there, Option.bind_eq_bind, Option.bind_some]

/-- Blocks that were handled in their order, from a number on, with the messages about them.
Without a fault and without a refusal all of them were read, and as many were skipped as there
are messages. -/
structure ComplainsInTurn (work : PoolWork) (start count : Nat) (tally : ReadTally)
    (begun : Trace) (result : Except Fault ReadTally) (later : Trace) (asked : List Nat) :
    Prop where
  order : asked.Sublist (List.range' start count)
  reads_eq : later.reads = begun.reads + asked.length
  text_eq : later.diagnostics.text =
    begun.diagnostics.text ++ String.join (work.complaints begun.reads asked)
  whole : forall last, result = .ok last -> last.faults = 0 -> last.refusal = none ->
    tally.faults = 0 ∧ asked = List.range' start count ∧
      last.failedBlocks = tally.failedBlocks + (work.complaints begun.reads asked).length

namespace ComplainsInTurn

variable {start count : Nat} {tally : ReadTally} {begun middle later : Trace}
  {result : Except Fault ReadTally} {asked : List Nat}

/-- Blocks that are left over are not complained about. -/
theorem stops (early : forall last, result = .ok last -> last.faults = 0 -> last.refusal ≠ none) :
    work.ComplainsInTurn start count tally begun result begun [] where
  order := List.nil_sublist _
  reads_eq := rfl
  text_eq := String.append_empty.symm
  whole last same calm admitted := absurd admitted (early last same calm)

/-- A fault before a read leaves no message. -/
theorem fault (goesOn : work.ComplainsInTurn (start + 1) count tally.addFault begun result later
    asked) : work.ComplainsInTurn start (count + 1) tally begun result later asked where
  order := goesOn.order.trans (List.sublist_cons_self start _)
  reads_eq := goesOn.reads_eq
  text_eq := goesOn.text_eq
  whole last same calm admitted :=
    absurd (goesOn.whole last same calm admitted).1 (Nat.succ_ne_zero _)

variable {answer : Except (Halt ScanError) (Option (List Address))}

theorem reads_of_read (read : Complains (work.complaintAt? begun.reads start) begun answer middle)
    (counted : later.reads = middle.reads + asked.length) :
    later.reads = begun.reads + (start :: asked).length := by
  have reads : middle.reads = begun.reads + 1 := by rw [read.trace_eq]
  rw [counted, reads, List.length_cons]
  omega

theorem text_of_read (read : Complains (work.complaintAt? begun.reads start) begun answer middle)
    (told : later.diagnostics.text =
      middle.diagnostics.text ++ String.join (work.complaints middle.reads asked)) :
    later.diagnostics.text =
      begun.diagnostics.text ++ String.join (work.complaints begun.reads (start :: asked)) := by
  have reads : middle.reads = begun.reads + 1 := by rw [read.trace_eq]
  rw [told, read.text_eq, reads, complaints, String.join_append, String.append_assoc]

/-- A fault behind a read leaves the message about the read. -/
theorem faultRead (read : Complains (work.complaintAt? begun.reads start) begun answer middle)
    (goesOn : work.ComplainsInTurn (start + 1) count tally.addFault middle result later asked) :
    work.ComplainsInTurn start (count + 1) tally begun result later (start :: asked) where
  order := goesOn.order.cons_cons start
  reads_eq := reads_of_read read goesOn.reads_eq
  text_eq := text_of_read read goesOn.text_eq
  whole last same calm admitted :=
    absurd (goesOn.whole last same calm admitted).1 (Nat.succ_ne_zero _)

/-- A block that was read is skipped exactly if there is a message about it. -/
theorem read {handled : Option (List Address)}
    (read : Complains (work.complaintAt? begun.reads start) begun (.ok handled) middle)
    (goesOn : work.ComplainsInTurn (start + 1) count (tally.add handled) middle result later
      asked) :
    work.ComplainsInTurn start (count + 1) tally begun result later (start :: asked) where
  order := goesOn.order.cons_cons start
  reads_eq := reads_of_read read goesOn.reads_eq
  text_eq := text_of_read read goesOn.text_eq
  whole last same calm admitted := by
    rcases goesOn.whole last same calm admitted with ⟨still, all, skipped⟩
    have reads : middle.reads = begun.reads + 1 := by rw [read.trace_eq]
    have counted := read.counted handled rfl
    refine ⟨?_, ?_, ?_⟩
    · cases handled <;> exact still
    · rw [all]
      rfl
    · rw [skipped, complaints, List.length_append, reads]
      cases handled with
      | none =>
          rcases Option.ne_none_iff_exists'.mp (counted.mp rfl) with ⟨message, there⟩
          rw [there]
          exact Nat.add_assoc _ 1 _
      | some hits =>
          have quiet : work.complaintAt? begun.reads start = none :=
            Decidable.not_not.mp fun some => absurd (counted.mpr some) (Option.some_ne_none hits)
          rw [quiet, Option.toList_none, List.length_nil, Nat.zero_add]
          rfl

end ComplainsInTurn

section Complaining

variable (honest : work.reader.target.Honest) (tells : work.reader.tellsFailures = true)

include honest tells

theorem readBlock_complains (takes : trace.diagnostics.TakesAll) :
    ∃ answer later, work.reader.readBlock work.pattern region block trace = (answer, later) ∧
      Complains (work.reader.target.complaint? region block
        (work.reader.target.read trace.reads block.start block.length.toNat)) trace answer
        later := by
  have counted : (work.reader.target.readIn block.start block.length.toNat : Run ScanError _)
      trace = (.ok (work.reader.target.read trace.reads block.start block.length.toNat),
        { trace with reads := trace.reads + 1 }) := rfl
  -- Both ways to skip a block tell of it and answer nothing.
  have skips : forall {failure : ReadFailure} {text : String}
      {complaint : Option String}, failure.text = .ok text ->
      complaint = some (work.reader.target.heading region ++ text) ->
      ∃ answer later, (do work.reader.skip region failure; return none :
          Run ScanError (Option (List Address))) { trace with reads := trace.reads + 1 } =
          (answer, later) ∧ Complains complaint trace answer later := by
    rintro failure text complaint known rfl
    rcases @Reader.skip_of_takesAll _ region _ _ { trace with reads := trace.reads + 1 } tells
      known takes with ⟨drain, told, stays, written⟩
    refine ⟨.ok none, { trace with reads := trace.reads + 1, diagnostics := drain }, ?_,
      rfl, stays, ?_, ?_⟩
    · rw [Run.bind_of_ok told]
      rfl
    · rw [written, Option.toList_some, Sink.join_one]
    · rintro handled same
      cases same
      exact ⟨fun _ => Option.some_ne_none _, fun _ => rfl⟩
  unfold Reader.readBlock
  rw [Run.bind_of_ok counted]
  cases asked : work.reader.target.read trace.reads block.start block.length.toNat with
  | error cause =>
      rcases @ReadFailure.complaint?_of_error work.reader.target region block cause with
        ⟨text, known, complains⟩
      exact skips known complains
  | ok bytes =>
      dsimp only
      by_cases whole : bytes.length = block.length.toNat
      · have quiet : work.reader.target.complaint? region block (.ok bytes) = none :=
          if_pos whole
        rw [if_pos whole, quiet]
        have read : forall {answer : Except (Halt ScanError) (Option (List Address))},
            answer ≠ .ok none ->
            Complains none trace answer { trace with reads := trace.reads + 1 } := by
          intro answer found
          refine ⟨rfl, takes, String.append_empty.symm, ?_⟩
          rintro handled rfl
          exact ⟨fun skipped => absurd (congrArg Except.ok skipped) found,
            fun complains => absurd rfl complains⟩
        rcases block.placesOf work.pattern bytes with kind | hits
        · exact ⟨_, _, rfl, read (by simp)⟩
        · exact ⟨_, _, rfl, read (by simp)⟩
      · rw [if_neg whole]
        rcases @ReadFailure.complaint?_of_short work.reader.target region block bytes
          (honest _ _ _ _ asked) whole with ⟨text, known, complains⟩
        exact skips known complains

/-- A block without a region is not read; any other leaves its complaint. -/
theorem handleBlock_complains (here : work.blocks[index]? = some block)
    (takes : trace.diagnostics.TakesAll) :
    (∃ kind, (work.reader.handleBlock work.pattern work.regions block :
      Run ScanError (Option (List Address))) trace = (.error (.fault kind), trace)) ∨
    ∃ answer later, work.reader.handleBlock work.pattern work.regions block trace =
      (answer, later) ∧ Complains (work.complaintAt? trace.reads index) trace answer later := by
  unfold Reader.handleBlock
  cases there : work.regions[block.regionIndex]? with
  | none => exact Or.inl ⟨.outOfRange, rfl⟩
  | some region =>
      rw [complaintAt?_eq here there]
      exact Or.inr (readBlock_complains honest tells takes)

theorem handleBlocks_complains {workers start : Nat} {rest : List ReadBlock} {tally : ReadTally}
    {budget : Budget} (manned : workers ≠ 0) (here : work.blocks.drop start = rest)
    (takes : trace.diagnostics.TakesAll) :
    ∃ result spent later asked,
      work.reader.handleBlocks work.pattern work.regions workers tally budget rest trace =
        ((result, spent), later) ∧
      work.ComplainsInTurn start rest.length tally trace result later asked := by
  induction rest generalizing start tally budget trace with
  | nil =>
      refine ⟨.ok tally, budget, trace, [], rfl, List.nil_sublist _, rfl,
        String.append_empty.symm, ?_⟩
      rintro last same calm admitted
      cases same
      exact ⟨calm, rfl, rfl⟩
  | cons block others ih =>
      have found : work.blocks[start]? = some block := by
        rw [<- List.head?_drop, here, List.head?_cons]
      have behind : work.blocks.drop (start + 1) = others := by
        rw [<- List.tail_drop, here, List.tail_cons]
      unfold Reader.handleBlocks
      by_cases spent : workers ≤ tally.faults
      · rw [if_pos spent]
        refine ⟨_, _, _, [], rfl, .stops ?_⟩
        rintro last same calm
        cases same
        omega
      · rw [if_neg spent]
        rcases budget.acquire block.length with ⟨cause | kind⟩ | ⟨held | _⟩
        · refine ⟨_, _, _, [], rfl, .stops ?_⟩
          rintro last same calm
          cases same
          exact Option.some_ne_none cause
        · rcases @ih trace (start + 1) tally.addFault budget behind takes with
            ⟨result, left, later, asked, ran, goesOn⟩
          exact ⟨result, left, later, asked, ran, goesOn.fault⟩
        · dsimp only
          rcases handleBlock_complains honest tells found takes with
            ⟨kind, came⟩ | ⟨answer, middle, came, read⟩
          · rw [came]
            rcases @ih trace (start + 1) tally.addFault (held.release block.length) behind takes
              with ⟨result, left, later, asked, ran, goesOn⟩
            exact ⟨result, left, later, asked, ran, goesOn.fault⟩
          · rw [came]
            rcases answer with stop | handled
            · rcases @ih middle (start + 1) tally.addFault (held.release block.length) behind
                read.takes with ⟨result, left, later, asked, ran, goesOn⟩
              exact ⟨result, left, later, start :: asked, ran, .faultRead read goesOn⟩
            · rcases @ih middle (start + 1) (tally.add handled) (held.release block.length) behind
                read.takes with ⟨result, left, later, asked, ran, goesOn⟩
              exact ⟨result, left, later, start :: asked, ran, .read read goesOn⟩
        · refine ⟨_, _, _, [], rfl, .stops ?_⟩
          rintro last same
          cases same

/-- So a reader that handles all blocks leaves one message for each that was read but not in
full. -/
theorem handleBlocks_tells {workers : Nat} (manned : workers ≠ 0) (budget : Budget)
    (takes : trace.diagnostics.TakesAll) :
    ∃ result spent later asked,
      work.reader.handleBlocks work.pattern work.regions workers {} budget work.blocks trace =
        ((result, spent), later) ∧
      work.Tells trace asked (work.complaints trace.reads asked) later ∧
      forall last, result = .ok last -> last.faults = 0 -> last.refusal = none ->
        asked = List.range work.blocks.length ∧
          last.failedBlocks = (work.complaints trace.reads asked).length := by
  rcases @handleBlocks_complains work trace honest tells workers 0 work.blocks {} budget manned
    List.drop_zero takes with ⟨result, spent, later, asked, ran, order, reads, text, whole⟩
  rw [<- List.range_eq_range'] at order whole
  refine ⟨result, spent, later, asked, ran, ⟨reads, text, .refl _, order.nodup List.nodup_range,
    fun index member => List.mem_range.mp (order.subset member)⟩, ?_⟩
  intro last same calm admitted
  rcases whole last same calm admitted with ⟨-, all, skipped⟩
  exact ⟨all, skipped.trans (Nat.zero_add _)⟩

end Complaining

end PoolWork
end MemoryProbe
