import MemoryProbe.Proofs.Following
import MemoryProbe.Proofs.Heap.Extents
import MemoryProbe.Proofs.Heap.Measuring

namespace MemoryProbe

/-!
Walks through one listing with different settings.  What a walk lists depends on the listing
alone, whether blocks are listed, whether and from where contents are read, and whether the
reads succeed.  A reader that fails at more blocks changes what is counted and what is
written; it makes no walk fail.
-/

/-- What a walk lists of a heap under all settings. -/
structure HeapOutline where
  id : HeapId
  start : Address
  stop : Address
  blocks : Nat
deriving DecidableEq, Repr

def HeapStats.outline (stats : HeapStats) : HeapOutline :=
  ⟨stats.id, stats.start, stats.stop, stats.blocks⟩

/-- The outline of a heap, unless its blocks cannot be had or are none. -/
def HeapListing.outline? (listing : HeapListing) (id : HeapId) : Option HeapOutline :=
  match listing.blocks id with
  | .ok (first :: rest) =>
    let extent := HeapExtent.ofBlocks first rest
    some ⟨id, extent.start, extent.stop, rest.length + 1⟩
  | _ => none

/-- What a walk tells of the heaps of a listing.  `reads` is whether contents are read. -/
structure HeapSummary.Lists (summary : HeapSummary) (listing : HeapListing)
    (heaps : List HeapId) (reads : Bool) : Prop where
  outlines : summary.heaps.map HeapStats.outline = heaps.filterMap listing.outline?
  skipped : summary.skippedHeaps = heaps.countP fun id => (listing.outline? id).isNone
  all : summary.heaps.length + summary.skippedHeaps = heaps.length
  entropy : forall stats, stats ∈ summary.heaps -> stats.entropy.isSome = reads
  unread_le : forall stats, stats ∈ summary.heaps -> stats.unreadBlocks ≤ stats.blocks
  unread_eq : reads = false -> forall stats, stats ∈ summary.heaps -> stats.unreadBlocks = 0

/-- Two summaries differ at most in what was read. -/
def HeapSummary.Alike (summary other : HeapSummary) : Prop :=
  summary.heaps.map HeapStats.outline = other.heaps.map HeapStats.outline ∧
    summary.skippedHeaps = other.skippedHeaps

/-- A reader reads no block in full that another one does not. -/
def Target.ReadsLess (failing whole : Target) : Prop :=
  forall reads block, (failing.contents? reads block).isSome = true ->
    (whole.contents? reads block).isSome = true

namespace HeapListing

variable {listing : HeapListing} {id : HeapId}

theorem outline?_of_holds {first : HeapBlock} {rest : List HeapBlock}
    (holds : listing.blocks id = .ok (first :: rest)) :
    listing.outline? id = some ⟨id, (HeapExtent.ofBlocks first rest).start,
      (HeapExtent.ofBlocks first rest).stop, rest.length + 1⟩ := by
  unfold outline?
  rw [holds]

theorem outline?_of_lacks (lacks : listing.Lacks id) : listing.outline? id = none := by
  unfold outline?
  rcases lacks with ⟨cause, fails⟩ | none
  · rw [fails]
  · rw [none]

/-- A heap has no outline exactly if its blocks cannot be had or are none. -/
theorem outline?_eq_none_iff : listing.outline? id = none <-> listing.Lacks id := by
  constructor
  · intro none
    rcases listing.holds_or_lacks id with ⟨first, rest, holds⟩ | lacks
    · rw [outline?_of_holds holds] at none
      cases none
    · exact lacks
  · exact outline?_of_lacks

end HeapListing

namespace HeapWalker

variable {walker : HeapWalker} {trace later : Trace} {heaps : List HeapId}

/-! ## What every walk lists -/

/-- Blocks are left unread only if there is a reader, and no more than there are. -/
theorem unread_of_walkHeap {id : HeapId} {first : HeapBlock} {rest : List HeapBlock}
    {stats : HeapStats} (ran : walker.walkHeap id first rest trace = (.ok stats, later)) :
    stats.entropy.isSome = walker.reader.isSome ∧ stats.unreadBlocks ≤ stats.blocks ∧
      (walker.reader.isSome = false -> stats.unreadBlocks = 0) := by
  rcases exists_of_walkHeap ran with ⟨unread, histogram, measures, rfl⟩
  refine ⟨Option.isSome_map, ?_⟩
  cases reads : walker.reader with
  | none =>
      cases of_visitBlocks_unread reads (exists_of_measure measures).1
      exact ⟨Nat.zero_le _, fun _ => rfl⟩
  | some reader =>
      have number := (of_measure reads measures).1
      rw [List.length_cons] at number
      refine ⟨?_, fun silent => absurd silent Bool.noConfusion⟩
      change unread ≤ rest.length + 1
      omega

/-- A walk lists the heaps that have blocks, in their order, and skips the others. -/
theorem Passes.outlines {found : List HeapStats} {skipped : Nat}
    (passes : walker.Passes trace heaps found skipped later) :
    found.map HeapStats.outline = heaps.filterMap walker.listing.outline? ∧
      (skipped = heaps.countP fun id => (walker.listing.outline? id).isNone) ∧
      found.length + skipped = heaps.length := by
  induction passes with
  | ends => exact ⟨rfl, rfl, rfl⟩
  | @lists trace middle _ id first others heaps stats found skipped holds shown rest ih =>
      rcases ih with ⟨outlines, left, all⟩
      rcases exists_of_showHeap shown with ⟨headed, walked, -, walks⟩
      rcases exists_of_walkHeap walks with ⟨unread, histogram, -, rfl⟩
      have known := HeapListing.outline?_of_holds holds
      refine ⟨?_, ?_, ?_⟩
      · rw [List.map_cons, List.filterMap_cons_some known, outlines]
        rfl
      · rw [List.countP_cons_of_neg (by rw [known]; exact Bool.false_ne_true), left]
      · rw [List.length_cons, List.length_cons]
        omega
  | @skips trace _ id heaps found skipped lacks rest ih =>
      rcases ih with ⟨outlines, left, all⟩
      have unknown := HeapListing.outline?_of_lacks lacks
      refine ⟨?_, ?_, ?_⟩
      · rw [List.filterMap_cons_none unknown, outlines]
      · rw [List.countP_cons_of_pos (by rw [unknown]; rfl), left]
      · rw [List.length_cons]
        omega

/-- A walk that comes to an answer tells of all heaps of its listing. -/
theorem lists_of_walk {summary : HeapSummary} (listed : walker.listing.heaps = .ok heaps)
    (ran : walker.walk trace = (.ok summary, later)) :
    summary.Lists walker.listing heaps walker.reader.isSome := by
  rcases exists_passes_of_walk listed ran with ⟨began, ended, -, passes⟩
  rcases passes.outlines with ⟨outlines, skipped, all⟩
  constructor
  · exact outlines
  · exact skipped
  · exact all
  · intro stats member
    rcases passes.exists_walkHeap member with ⟨id, first, rest, before, after, -, -, walks⟩
    exact (unread_of_walkHeap walks).1
  · intro stats member
    rcases passes.exists_walkHeap member with ⟨id, first, rest, before, after, -, -, walks⟩
    exact (unread_of_walkHeap walks).2.1
  · intro silent stats member
    rcases passes.exists_walkHeap member with ⟨id, first, rest, before, after, -, -, walks⟩
    exact (unread_of_walkHeap walks).2.2 silent

/-! ## A reader that fails at more blocks -/

section Failing

variable {listing : HeapListing} {listsBlocks : Bool} {whole failing : Target}

theorem follows_growBuffer (length : Nat) :
    (growBuffer length).Follows (growBuffer length) := by
  intro trace other near
  have same := near.buffer
  unfold growBuffer
  by_cases roomy : length ≤ trace.buffer.length
  · rw [if_pos roomy, if_pos (same ▸ roomy)]
    exact .answers near
  · have narrow : ¬ length ≤ other.buffer.length := same ▸ roomy
    rw [if_neg roomy, if_neg narrow]
    by_cases can : canAllocate length = true
    · rw [if_pos can, if_pos can]
      refine .answers { near with buffer := ?_ }
      rw [List.length_append, List.length_append, same]
    · rw [if_neg can, if_neg can]
      exact .fails

theorem countBytes_cases (bytes : List UInt8) (trace : Trace) :
    countBytes bytes trace =
        (.ok (), { trace with histogram := trace.histogram.add bytes }) ∧
      trace.histogram.total + bytes.length < UInt64.size ∨
    countBytes bytes trace = (.error (.fault .overflow), trace) := by
  unfold countBytes
  by_cases fits : trace.histogram.total + bytes.length < UInt64.size
  · exact Or.inl ⟨if_pos fits, fits⟩
  · exact Or.inr (if_neg fits)

theorem follows_countBytes {bytes others : List UInt8} (same : others.length = bytes.length) :
    (countBytes bytes).Follows (countBytes others) := by
  intro trace other near
  have total := near.total
  rcases countBytes_cases bytes trace with ⟨counted, fits⟩ | faulted
  · rw [counted]
    unfold countBytes
    rw [if_pos (by omega)]
    refine .answers { near with total := ?_ }
    change _ + others.length ≤ _ + bytes.length
    omega
  · rw [faulted]
    exact .faults

/-- Storing bytes keeps the length of the buffer. -/
theorem exists_fillBuffer (bytes : List UInt8) (trace : Trace) :
    ∃ buffer : List UInt8, buffer.length = trace.buffer.length ∧
      fillBuffer bytes trace = (.ok buffer, { trace with buffer := buffer }) := by
  refine ⟨_, ?_, rfl⟩
  rw [List.length_take, List.length_append, List.length_drop]
  omega

/-- What a read answers is a whole block of that length. -/
def Whole (length : Nat) (answer : Except MemoryError (List UInt8)) : Prop :=
  ∃ bytes, answer = .ok bytes ∧ bytes.length = length

theorem countContents_ok (length : Nat) (bytes : List UInt8) :
    countContents length (.ok bytes) = (do
      let buffer <- fillBuffer bytes
      if bytes.length = length then
        countBytes (buffer.take length)
        return true
      else
        return false) :=
  rfl

/-- Less than the whole block is not counted. -/
theorem countContents_of_short {length : Nat} {answer : Except MemoryError (List UInt8)}
    (short : ¬ Whole length answer) (trace : Trace) :
    ∃ buffer : List UInt8, buffer.length = trace.buffer.length ∧
      countContents length answer trace = (.ok false, { trace with buffer := buffer }) := by
  cases answer with
  | error cause => exact ⟨trace.buffer, rfl, rfl⟩
  | ok bytes =>
      rcases exists_fillBuffer bytes trace with ⟨buffer, same, filled⟩
      refine ⟨buffer, same, ?_⟩
      rw [countContents_ok, Run.bind_of_ok filled, if_neg fun full => short ⟨bytes, rfl, full⟩]
      rfl

/-- The whole block is counted out of the buffer. -/
theorem countContents_of_whole {length : Nat} {answer : Except MemoryError (List UInt8)}
    (full : Whole length answer) (trace : Trace) :
    ∃ buffer : List UInt8, buffer.length = trace.buffer.length ∧
      countContents length answer trace =
        (countBytes (buffer.take length) >>= fun _ => pure true)
          { trace with buffer := buffer } := by
  rcases full with ⟨bytes, rfl, long⟩
  rcases exists_fillBuffer bytes trace with ⟨buffer, same, filled⟩
  refine ⟨buffer, same, ?_⟩
  rw [countContents_ok, Run.bind_of_ok filled, if_pos long]

/-- Where the one counts a block, so does the other. -/
theorem follows_countContents {length : Nat} {given found : Except MemoryError (List UInt8)}
    (less : Whole length found -> Whole length given) :
    (countContents length given).Follows (countContents length found) := by
  intro trace other near
  by_cases full : Whole length given
  · rcases countContents_of_whole full trace with ⟨buffer, same, counts⟩
    rw [counts]
    by_cases also : Whole length found
    · rcases countContents_of_whole also other with ⟨others, equal, follows⟩
      have level : (others.take length).length = (buffer.take length).length := by
        rw [List.length_take, List.length_take, equal, same, near.buffer]
      rw [follows]
      refine (follows_countBytes level).bind (fun _ _ _ _ => .pure true true) _ _ ?_
      exact { near with buffer := by rw [same, equal, near.buffer] }
    · rcases countContents_of_short also other with ⟨others, equal, follows⟩
      rw [follows]
      rcases countBytes_cases (buffer.take length) { trace with buffer := buffer } with
        ⟨counted, -⟩ | faulted
      · rw [Run.bind_of_ok counted]
        refine .answers { near with buffer := ?_, total := ?_ }
        · rw [same, equal, near.buffer]
        · exact Nat.le_trans near.total (Nat.le_add_right _ _)
      · rw [Run.bind_of_error faulted]
        exact .faults
  · rcases countContents_of_short full trace with ⟨buffer, same, kept⟩
    rcases countContents_of_short (fun also => full (less also)) other with
      ⟨others, equal, follows⟩
    rw [kept, follows]
    refine .answers { near with buffer := ?_ }
    rw [same, equal, near.buffer]

/-- A block is whole exactly if its contents are answered. -/
theorem whole_iff {reader : Target} {reads : Nat} {block : HeapBlock} :
    Whole block.size.toNat (reader.read reads block.address block.size.toNat) <->
      (reader.contents? reads block).isSome = true := by
  unfold Target.contents? Whole
  cases reader.read reads block.address block.size.toNat with
  | error cause => simp
  | ok bytes =>
      by_cases full : bytes.length = block.size.toNat
      · simp [full]
      · simp [full]

theorem follows_accumulate (less : failing.ReadsLess whole) (block : HeapBlock) :
    (accumulate whole block).Follows (accumulate failing block) := by
  refine (follows_growBuffer block.size.toNat).bind fun _ _ _ _ => ?_
  intro trace other near
  refine follows_countContents ?_ { trace with reads := trace.reads + 1 }
    { other with reads := other.reads + 1 } { near with reads := congrArg Nat.succ near.reads }
  rw [near.reads]
  exact fun full => whole_iff.mpr (less other.reads block (whole_iff.mp full))

variable {leader follower : HeapWalker}

/-- A walker walks the same listing as another one, with a reader that reads less. -/
structure Lags (leader follower : HeapWalker) : Prop where
  listing : leader.listing = follower.listing
  readers : ∃ whole failing, leader.reader = some whole ∧ follower.reader = some failing ∧
    failing.ReadsLess whole

theorem follows_visitBlock (lags : leader.Lags follower) (block : HeapBlock) :
    (leader.visitBlock block).Follows (follower.visitBlock block) := by
  rcases lags.readers with ⟨whole, failing, reads, lacks, less⟩
  unfold visitBlock
  rw [reads, lacks]
  refine ((leader.prints_printBlock block).follows (follower.prints_printBlock block)).bind
    fun _ _ _ _ => ?_
  refine (follows_accumulate less block).bind fun read other _ _ => ?_
  have kept : (pure false : Run HeapError Bool).Prints false := Run.prints_pure false
  have told (walker : HeapWalker) :
      (walker.printUnread block >>= fun _ => pure true).Prints true :=
    (walker.prints_printUnread block).bind (Run.prints_pure true)
  cases read with
  | true =>
      cases other with
      | true => exact kept.follows kept
      | false => exact kept.follows (told follower)
  | false =>
      cases other with
      | true => exact (told leader).follows kept
      | false => exact (told leader).follows (told follower)

theorem follows_visitBlocks (lags : leader.Lags follower) (unread missed : Nat)
    (blocks : List HeapBlock) :
    (leader.visitBlocks unread blocks).Follows (follower.visitBlocks missed blocks) := by
  induction blocks generalizing unread missed with
  | nil => exact .pure unread missed
  | cons block blocks ih =>
      exact (follows_visitBlock lags block).bind fun one other _ _ => ih _ _

theorem follows_measure (lags : leader.Lags follower) (blocks : List HeapBlock) :
    (leader.measure blocks).Follows (follower.measure blocks) := by
  have reset : resetHistogram.Follows resetHistogram :=
    fun _ _ near => .answers { near with total := Nat.le_refl _ }
  have counted : countedBytes.Follows countedBytes := fun _ _ near => .answers near
  refine reset.bind fun _ _ _ _ => ?_
  refine (follows_visitBlocks lags 0 0 blocks).bind fun unread missed _ _ => ?_
  exact counted.bind fun histogram other _ _ => .pure _ _

theorem follows_showHeap (lags : leader.Lags follower) (id : HeapId) (first : HeapBlock)
    (rest : List HeapBlock) :
    (leader.showHeap id first rest).Follows (follower.showHeap id first rest) := by
  refine (prints_printHeading id).follows_self.bind fun _ _ _ _ => ?_
  have walks : (leader.walkHeap id first rest).Follows (follower.walkHeap id first rest) :=
    (follows_measure lags (first :: rest)).bind fun one other _ _ => .pure _ _
  refine walks.bind fun stats other ran also => ?_
  -- Both heaps have a size, so that telling of them meets no fault.
  rcases ran with ⟨_, _, ran⟩
  rcases also with ⟨_, _, also⟩
  rcases (encloses_of_walkHeap ran).size_eq with ⟨size, known, -⟩
  rcases (encloses_of_walkHeap also).size_eq with ⟨length, found, -⟩
  exact ((prints_printStats known).follows (prints_printStats found)).bind
    fun _ _ _ _ => .pure stats other

theorem follows_walkHeaps (lags : leader.Lags follower) (summary before : HeapSummary)
    (heaps : List HeapId) :
    (leader.walkHeaps summary heaps).Follows (follower.walkHeaps before heaps) := by
  induction heaps generalizing summary before with
  | nil => exact .pure summary before
  | cons id heaps ih =>
      rcases leader.listing.holds_or_lacks id with ⟨first, rest, holds⟩ | lacks
      · rw [walkHeaps_of_holds holds, walkHeaps_of_holds (lags.listing ▸ holds)]
        exact (follows_showHeap lags id first rest).bind fun stats other _ _ => ih _ _
      · rw [walkHeaps_of_lacks lacks, walkHeaps_of_lacks (lags.listing ▸ lacks)]
        exact ih _ _

/-- A walk that reads less follows the other one. -/
theorem follows_walk (lags : leader.Lags follower) : leader.walk.Follows follower.walk := by
  unfold walk
  rw [<- lags.listing]
  cases leader.listing.heaps with
  | error cause =>
      exact (Run.prints_writeLine _).follows_self.bind fun _ _ _ _ => .pure _ _
  | ok heaps =>
      refine (prints_printNone heaps).follows_self.bind fun _ _ _ _ => ?_
      refine (follows_walkHeaps lags {} {} heaps).bind fun summary other _ _ => ?_
      exact (Run.prints_writeLine "").follows_self.bind fun _ _ _ _ => .pure summary other

end Failing

end HeapWalker

/-! ## All settings -/

/-- What a walk lists does not depend on its settings.  Every walk through a listing lists
the heaps that have blocks, in their order, and skips the others; it has an entropy exactly
if there is a reader, and leaves no block unread without one.  So two walks that come to an
answer differ at most in what was read.  A walk whose reader fails at more blocks, into an
output that takes all, still comes to an answer where the other one does, after as many
reads and with the same messages, and fails only for the same cause. -/
theorem HeapListing.walks_list_alike {listing : HeapListing} {heaps : List HeapId}
    (listed : listing.heaps = .ok heaps) :
    (forall id, listing.outline? id = none <-> listing.Lacks id) ∧
    (forall listsBlocks reader trace summary later,
      listing.walk listsBlocks reader trace = (.ok summary, later) ->
        summary.Lists listing heaps (reader.any Except.isOk)) ∧
    (forall listsBlocks reader trace summary later otherLists otherReader before other after,
      listing.walk listsBlocks reader trace = (.ok summary, later) ->
      listing.walk otherLists otherReader before = (.ok other, after) ->
        summary.Alike other) ∧
    (forall listsBlocks whole failing trace before, failing.ReadsLess whole ->
      trace.Kindred before ->
      (forall summary later,
        listing.walk listsBlocks (some (.ok whole)) trace = (.ok summary, later) ->
        ∃ other after,
          listing.walk listsBlocks (some (.ok failing)) before = (.ok other, after) ∧
          summary.Alike other ∧ later.Kindred after) ∧
      (forall cause later,
        listing.walk listsBlocks (some (.ok whole)) trace = (.error (.failure cause), later) ->
        ∃ after, listing.walk listsBlocks (some (.ok failing)) before =
          (.error (.failure cause), after))) := by
  have lists (listsBlocks : Bool) (reader : Option (Except MemoryError Target)) (trace : Trace)
      (summary : HeapSummary) (later : Trace)
      (ran : listing.walk listsBlocks reader trace = (.ok summary, later)) :
      summary.Lists listing heaps (reader.any Except.isOk) := by
    rcases exists_walk ran with ⟨began, walks⟩
    have told := HeapWalker.lists_of_walk listed walks
    rcases reader with _ | cause | target
    · exact told
    · exact told
    · exact told
  have alike {one two : Bool} {reader another : Option (Except MemoryError Target)}
      {trace later before after : Trace} {summary other : HeapSummary}
      (ran : listing.walk one reader trace = (.ok summary, later))
      (also : listing.walk two another before = (.ok other, after)) : summary.Alike other := by
    have told := lists _ _ _ _ _ ran
    have same := lists _ _ _ _ _ also
    exact ⟨told.outlines.trans same.outlines.symm, told.skipped.trans same.skipped.symm⟩
  refine ⟨fun id => outline?_eq_none_iff, lists, ?_, ?_⟩
  · intro one reader trace summary later two another before other after ran also
    exact alike ran also
  · intro listsBlocks whole failing trace before less near
    have lags : (listing.walker listsBlocks (some (.ok whole))).Lags
        (listing.walker listsBlocks (some (.ok failing))) :=
      ⟨rfl, whole, failing, rfl, rfl, less⟩
    have follows : (listing.walk listsBlocks (some (.ok whole))).Follows
        (listing.walk listsBlocks (some (.ok failing))) := HeapWalker.follows_walk lags
    constructor
    · intro summary later ran
      rcases follows.exists_of_ok near ran with ⟨other, after, also, close⟩
      exact ⟨other, after, also, alike ran also, close⟩
    · intro cause later stopped
      exact follows.exists_of_failure near stopped

/-- The process with eight equal bytes and four others, of which nothing can be read. -/
def deafTarget : Target :=
  { sparseProcess.target with read := fun _ address _ => .error (.readFailed address 5) }

/-- The walks through two heaps list both of them: with their blocks and without contents,
with a reader, and with one that reads nothing. -/
theorem HeapListing.walks_list_alike_of_sparse :
    sparseHeaps.listing.heaps = .ok [⟨16⟩, ⟨32⟩] ∧ deafTarget.ReadsLess sparseProcess.target ∧
    ∃ bare read deaf barely fully deafly,
      sparseHeaps.listing.walk true none {} = (.ok bare, barely) ∧
      sparseHeaps.listing.walk false (some (.ok sparseProcess.target)) {} = (.ok read, fully) ∧
      sparseHeaps.listing.walk false (some (.ok deafTarget)) {} = (.ok deaf, deafly) ∧
      bare.Alike read ∧ read.Alike deaf ∧ bare.heaps.length = 2 := by
  have takes : Sink.unlimited.TakesAll := fun _ _ _ => rfl
  have listed : sparseHeaps.listing.heaps = .ok [⟨16⟩, ⟨32⟩] := rfl
  have less : deafTarget.ReadsLess sparseProcess.target := by
    intro reads block known
    cases known
  have answers : (sparseHeaps.listing.walk true none {}).1.isOk = true := by
    decide +kernel
  have reads : (sparseHeaps.listing.walk false (some (.ok sparseProcess.target)) {}).1.isOk =
      true := by
    decide +kernel
  rcases Run.exists_of_isOk answers with ⟨bare, barely, ran⟩
  rcases Run.exists_of_isOk reads with ⟨read, fully, also⟩
  rcases walks_list_alike listed with ⟨-, lists, alike, lags⟩
  have near : Trace.Kindred {} {} := ⟨takes, takes, rfl, rfl, rfl, rfl, Nat.le_refl _⟩
  rcases (lags false sparseProcess.target deafTarget {} {} less near).1 read fully also with
    ⟨deaf, deafly, last, same, -⟩
  have told := lists true none {} bare barely ran
  have none : bare.skippedHeaps = 0 := told.skipped
  have all := told.all
  rw [none] at all
  exact ⟨listed, less, bare, read, deaf, barely, fully, deafly, ran, also, last,
    alike _ _ _ _ _ _ _ _ _ _ ran also, same, all⟩

end MemoryProbe
