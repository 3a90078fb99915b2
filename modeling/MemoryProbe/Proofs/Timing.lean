import MemoryProbe.Proofs.Reciting

namespace MemoryProbe

/-!
Runs that read two kinds of things in turn.  All reads of a run are counted together, and a run
that reads the one kind apart from the other counts them otherwise.  The two are in step if the
second one is answered at the times at which the first one read.
-/

/-- The reads from a number on are those of the given times. -/
def ReadAt (times : Nat -> Nat) (first : Nat) (reads : List Nat) : Prop :=
  (List.range' first reads.length).map times = reads

/-- The reads from a number on are headers or contents, each in their order. -/
inductive SharedReads : Nat -> List Nat -> List Nat -> Prop where
  | none {first : Nat} : SharedReads first [] []
  | header {first : Nat} {headers contents : List Nat}
    (rest : SharedReads (first + 1) headers contents) :
    SharedReads first (first :: headers) contents
  | content {first : Nat} {headers contents : List Nat}
    (rest : SharedReads (first + 1) headers contents) :
    SharedReads first headers (first :: contents)

/-- At most the next read. -/
inductive NextRead (first : Nat) : List Nat -> Prop where
  | none : NextRead first []
  | one : NextRead first [first]

/-! ## Times of reads -/

namespace ReadAt

variable {times : Nat -> Nat} {first : Nat} {reads more : List Nat}

theorem append_iff :
    ReadAt times first (reads ++ more) <->
      ReadAt times first reads ∧ ReadAt times (first + reads.length) more := by
  unfold ReadAt
  rw [List.length_append, <- List.range'_append_1, List.map_append]
  refine ⟨fun same => List.append_inj same ?_, fun same => by rw [same.1, same.2]⟩
  rw [List.length_map, List.length_range']

theorem singleton_iff {read : Nat} : ReadAt times first [read] <-> times first = read := by
  unfold ReadAt
  simp only [List.length_singleton, List.range'_one, List.map_singleton, List.singleton_inj]

/-- There are reads at any times. -/
theorem exists_times (first : Nat) (reads : List Nat) : ∃ times, ReadAt times first reads := by
  refine ⟨fun count => reads.getD (count - first) 0, ?_⟩
  apply List.ext_getElem
  · rw [List.length_map, List.length_range']
  · intro index inside known
    rw [List.getElem_map, List.getElem_range', Nat.one_mul, Nat.add_sub_cancel_left,
      List.getD_eq_getElem _ _ known]

end ReadAt

namespace SharedReads

variable {first : Nat} {headers contents own : List Nat}

theorem of_contents (next : NextRead first own)
    (rest : SharedReads (first + own.length) headers contents) :
    SharedReads first headers (own ++ contents) := by
  cases next with
  | none => exact rest
  | one => exact .content rest

theorem of_headers (next : NextRead first own)
    (rest : SharedReads (first + own.length) headers contents) :
    SharedReads first (own ++ headers) contents := by
  cases next with
  | none => exact rest
  | one => exact .header rest

end SharedReads

/-! ## Runs in step -/

/-- Two traces differ at most in the number of reads. -/
def Trace.Alike (trace other : Trace) : Prop :=
  other = { trace with reads := other.reads }

theorem Trace.Alike.refl (trace : Trace) : trace.Alike trace :=
  rfl

namespace Run

variable {Cause Answer Later : Type}

/-- Two runs come to the same and leave the same but for the number of reads. -/
structure InStep (first second : Except (Halt Cause) Answer × Trace) : Prop where
  outcome : second.1 = first.1
  near : first.2.Alike second.2

/-- Runs in step stay so if what follows is in step for the answer that they came to. -/
theorem InStep.bind {part other : Run Cause Answer} {rest others : Answer -> Run Cause Later}
    {trace before : Trace} (first : InStep (part trace) (other before))
    (second : forall answer later after, part trace = (.ok answer, later) ->
      other before = (.ok answer, after) -> later.Alike after ->
      InStep (rest answer later) (others answer after)) :
    InStep ((part >>= rest) trace) ((other >>= others) before) := by
  rcases ran : part trace with ⟨outcome, later⟩
  rcases went : other before with ⟨same, after⟩
  rw [ran, went] at first
  rcases first with ⟨equal, near⟩
  cases equal
  cases outcome with
  | error stop =>
      rw [bind_of_error ran, bind_of_error went]
      exact ⟨rfl, near⟩
  | ok answer =>
      rw [bind_of_ok ran, bind_of_ok went]
      exact second answer later after ran went near

/-- A part that takes no notice of the number of reads is in step with itself. -/
theorem Unaware.inStep {part : Run Cause Answer} (unaware : part.Unaware) {trace other : Trace}
    (near : trace.Alike other) : InStep (part trace) (part other) := by
  have begins : other = { trace with diagnostics := trace.diagnostics, reads := other.reads } :=
    near
  have left := (unaware.leaves trace).1
  rw [begins, unaware trace.diagnostics other.reads trace]
  refine ⟨rfl, ?_⟩
  rw [<- left]
  rfl

/-- The reads of a run go to headers and to contents, and at those times it is in step with a
run of which the headers, from a number on, and the contents are read apart. -/
def SharedOut (part : Run Cause Answer) (trace : Trace) (count : Nat)
    (listed : (Nat -> Nat) -> (Nat -> Nat) -> Run Cause Answer) : Prop :=
  ∃ headers contents, SharedReads trace.reads headers contents ∧
    (forall answer later, part trace = (.ok answer, later) ->
      later.reads = trace.reads + headers.length + contents.length) ∧
    forall clock times other, ReadAt clock count headers -> ReadAt times other.reads contents ->
      trace.Alike other -> InStep (part trace) (listed clock times other)

namespace SharedOut

variable {trace : Trace} {count : Nat} {part : Run Cause Answer}
  {rest : Answer -> Run Cause Later} {own : List Nat}

/-- A part that reads nothing and is the same in both. -/
theorem of_unaware (unaware : part.Unaware) :
    part.SharedOut trace count fun _ _ => part := by
  refine ⟨[], [], .none, fun answer later ran => ?_, fun _ _ _ _ _ near => unaware.inStep near⟩
  rw [unaware.reads_eq ran]
  rfl

/-- Such a part comes first. -/
theorem bind_unaware {listed : Answer -> (Nat -> Nat) -> (Nat -> Nat) -> Run Cause Later}
    (unaware : part.Unaware)
    (follows : forall answer later, part trace = (.ok answer, later) ->
      (rest answer).SharedOut later count (listed answer)) :
    (part >>= rest).SharedOut trace count fun clock times =>
      part >>= fun answer => listed answer clock times := by
  rcases ran : part trace with ⟨stop | answer, middle⟩
  · refine ⟨[], [], .none, fun answer later came => ?_, fun clock times other _ _ near =>
      (unaware.inStep near).bind fun _ _ _ came => ?_⟩
    · rw [bind_of_error ran] at came
      cases came
    · cases ran.symm.trans came
  · have kept := unaware.reads_eq ran
    rcases follows answer middle ran with ⟨headers, contents, shared, counts, steps⟩
    rw [kept] at shared counts
    refine ⟨headers, contents, shared, fun result later came => ?_,
      fun clock times other known asked near =>
        (unaware.inStep near).bind fun _ _ after came went close => ?_⟩
    · rw [bind_of_ok ran] at came
      exact counts result later came
    · have left := unaware.reads_eq went
      cases ran.symm.trans came
      exact steps clock times after known (left ▸ asked) close

/-- Such a part comes last. -/
theorem bind_last {listed : (Nat -> Nat) -> (Nat -> Nat) -> Run Cause Answer}
    (first : part.SharedOut trace count listed)
    (unaware : forall answer, (rest answer).Unaware) :
    (part >>= rest).SharedOut trace count fun clock times => listed clock times >>= rest := by
  rcases first with ⟨headers, contents, shared, counts, steps⟩
  refine ⟨headers, contents, shared, fun result later came => ?_,
    fun clock times other known asked near =>
      (steps clock times other known asked near).bind fun answer _ _ _ _ close =>
        (unaware answer).inStep close⟩
  rcases exists_of_bind came with ⟨answer, middle, ran, came⟩
  rw [<- counts answer middle ran, (unaware answer).reads_eq came]

/-- A part that reads a header comes first.  The other run knows what is read. -/
theorem bind_header {answer : Answer}
    {listed known : (Nat -> Nat) -> (Nat -> Nat) -> Run Cause Later}
    (next : NextRead trace.reads own)
    (ran : part trace = (.ok answer, { trace with reads := trace.reads + own.length }))
    (follows : (rest answer).SharedOut { trace with reads := trace.reads + own.length }
      (count + own.length) known)
    (same : forall clock times, ReadAt clock count own -> listed clock times = known clock times) :
    (part >>= rest).SharedOut trace count listed := by
  rcases follows with ⟨headers, contents, shared, counts, steps⟩
  refine ⟨own ++ headers, contents, .of_headers next shared, fun result later came => ?_,
    fun clock times other told asked near => ?_⟩
  · rw [bind_of_ok ran] at came
    rw [counts result later came, List.length_append, Nat.add_assoc trace.reads]
  · rcases ReadAt.append_iff.mp told with ⟨first, others⟩
    rw [bind_of_ok ran, same clock times first]
    exact steps clock times other others asked near

/-- A part that reads contents comes first.  The other run reads them as well. -/
theorem bind_contents {other : (Nat -> Nat) -> Run Cause Answer}
    {listed : Answer -> (Nat -> Nat) -> (Nat -> Nat) -> Run Cause Later}
    (next : NextRead trace.reads own)
    (reads : forall answer later, part trace = (.ok answer, later) ->
      later.reads = trace.reads + own.length)
    (also_reads : forall times before answer later, other times before = (.ok answer, later) ->
      later.reads = before.reads + own.length)
    (steps : forall times before, ReadAt times before.reads own -> trace.Alike before ->
      InStep (part trace) (other times before))
    (follows : forall answer later, part trace = (.ok answer, later) ->
      (rest answer).SharedOut later count (listed answer)) :
    (part >>= rest).SharedOut trace count fun clock times =>
      other times >>= fun answer => listed answer clock times := by
  rcases ran : part trace with ⟨stop | answer, middle⟩
  · refine ⟨[], own, ?_, fun answer later came => ?_, fun clock times before _ asked near =>
      (steps times before asked near).bind fun _ _ _ came => ?_⟩
    · have alone := SharedReads.of_contents next .none
      rwa [List.append_nil] at alone
    · rw [bind_of_error ran] at came
      cases came
    · cases ran.symm.trans came
  · rcases follows answer middle ran with ⟨headers, contents, shared, counts, goesOn⟩
    rw [reads answer middle ran] at shared counts
    refine ⟨headers, own ++ contents, .of_contents next shared, fun result later came => ?_,
      fun clock times before told asked near => ?_⟩
    · rw [bind_of_ok ran] at came
      rw [counts result later came, List.length_append]
      omega
    · rcases ReadAt.append_iff.mp asked with ⟨first, others⟩
      refine (steps times before first near).bind fun _ _ after came went close => ?_
      cases ran.symm.trans came
      rw [<- also_reads times before answer after went] at others
      exact goesOn clock times after told others close

end SharedOut
end Run

end MemoryProbe
