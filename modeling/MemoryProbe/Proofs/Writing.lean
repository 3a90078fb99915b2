import MemoryProbe.Proofs.Pool.Blockwise
import MemoryProbe.Run

namespace MemoryProbe

/-!
What a run writes.  A run emits a text if it comes to an answer and adds exactly that
text to the output, unless the output refuses a request on the way.
-/

/-- A sink that meets every request. -/
def Sink.TakesAll (sink : Sink) : Prop :=
  forall requests held request, sink.accepts requests held request = true

namespace Run

variable {Cause Answer Later : Type} [OfIoError Cause]

omit [OfIoError Cause] in
/-- A run that begins with a stop goes no further. -/
theorem bind_of_error {part : Run Cause Answer} {rest : Answer -> Run Cause Later}
    {stop : Halt Cause} {trace later : Trace} (stopped : part trace = (.error stop, later)) :
    (part >>= rest) trace = (.error stop, later) := by
  change ExceptT.bindCont rest (part trace).1 (part trace).2 = _
  rw [stopped]
  rfl

/-- A run comes to an answer and writes a text, or the output refuses. -/
def Emits (part : Run Cause Answer) (answer : Answer) (text : String) : Prop :=
  forall trace,
    (∃ later, part trace = (.ok answer, later) ∧
      later.out.text = trace.out.text ++ text ∧ later.out.accepts = trace.out.accepts) ∨
    (¬ trace.out.TakesAll ∧ ∃ later,
      part trace = (.error (.failure (OfIoError.ofIoError .sinkFull)), later))

/-- A part that leaves the output alone emits nothing. -/
theorem emits_of_out_eq {part : Run Cause Answer} {answer : Answer}
    (quiet : forall trace, ∃ later, part trace = (.ok answer, later) ∧ later.out = trace.out) :
    part.Emits answer "" := by
  intro trace
  rcases quiet trace with ⟨later, answered, same⟩
  refine Or.inl ⟨later, answered, ?_, ?_⟩
  · rw [same, String.append_empty]
  · rw [same]

theorem emits_pure (answer : Answer) : (pure answer : Run Cause Answer).Emits answer "" :=
  emits_of_out_eq fun trace => ⟨trace, rfl, rfl⟩

theorem emits_ofExcept {result : Except Cause Answer} {answer : Answer}
    (answered : result = .ok answer) : (ofExcept result).Emits answer "" :=
  emits_of_out_eq fun trace => ⟨trace, by rw [answered]; rfl, rfl⟩

theorem emits_ofChecked {result : Except Fault Answer} {answer : Answer}
    (answered : result = .ok answer) :
    (ofChecked result : Run Cause Answer).Emits answer "" :=
  emits_of_out_eq fun trace => ⟨trace, by rw [answered]; rfl, rfl⟩

theorem emits_ofHalting {result : Except (Halt Cause) Answer} {answer : Answer}
    (answered : result = .ok answer) : (ofHalting result).Emits answer "" :=
  emits_of_out_eq fun trace => ⟨trace, by rw [answered]; rfl, rfl⟩

/-- Parts emit one after the other. -/
theorem Emits.bind {part : Run Cause Answer} {rest : Answer -> Run Cause Later}
    {answer : Answer} {result : Later} {text after : String}
    (first : part.Emits answer text) (second : (rest answer).Emits result after) :
    (part >>= rest).Emits result (text ++ after) := by
  intro trace
  rcases first trace with ⟨middle, answered, written, same⟩ | ⟨refuses, later, refused⟩
  · rw [bind_of_ok answered]
    rcases second middle with ⟨later, ended, more, still⟩ | ⟨refuses, later, refused⟩
    · refine Or.inl ⟨later, ended, ?_, still.trans same⟩
      rw [more, written, String.append_assoc]
    · refine Or.inr ⟨fun takes => refuses ?_, later, refused⟩
      unfold Sink.TakesAll
      rw [same]
      exact takes
  · exact Or.inr ⟨refuses, later, bind_of_error refused⟩

/-- Where a run comes to an answer, it is the one that it emits its text with. -/
theorem Emits.of_ok {part : Run Cause Answer} {answer given : Answer} {text : String}
    {trace later : Trace} (ran : part trace = (.ok given, later))
    (emits : part.Emits answer text) :
    given = answer ∧ later.out.text = trace.out.text ++ text := by
  rcases emits trace with ⟨other, answered, written, -⟩ | ⟨-, other, refused⟩
  · cases ran.symm.trans answered
    exact ⟨rfl, written⟩
  · cases ran.symm.trans refused

/-- A part that emits nothing leaves the text to the rest. -/
theorem Emits.after {part : Run Cause Answer} {rest : Answer -> Run Cause Later}
    {answer : Answer} {result : Later} {text : String} (quiet : part.Emits answer "")
    (second : (rest answer).Emits result text) : (part >>= rest).Emits result text := by
  have both := quiet.bind second
  rw [String.empty_append] at both
  exact both

/-- An answer that is made of another comes with the same text. -/
theorem Emits.made {part : Run Cause Answer} {make : Answer -> Later} {answer : Answer}
    {text : String} (first : part.Emits answer text) :
    (part >>= fun given => pure (make given)).Emits (make answer) text := by
  have both := @Emits.bind Cause Answer Later _ part (fun given => pure (make given)) answer
    (make answer) text "" first (emits_pure _)
  rw [String.append_empty] at both
  exact both

/-- A part whose answer says nothing is followed by the rest. -/
theorem Emits.then {part : Run Cause Unit} {rest : Run Cause Later} {result : Later}
    {text after : String} (first : part.Emits () text) (second : rest.Emits result after) :
    (part >>= fun _ => rest).Emits result (text ++ after) :=
  first.bind second

theorem emits_write (text : String) : (Run.write text : Run Cause Unit).Emits () text := by
  intro trace
  unfold Run.write Run.request Sink.ask
  by_cases taken : trace.out.accepts trace.out.requests trace.out.text.utf8ByteSize
      (.write text) = true
  · rw [if_pos taken]
    exact Or.inl ⟨_, rfl, rfl, rfl⟩
  · rw [if_neg taken]
    exact Or.inr ⟨fun takes => taken (takes _ _ _), _, rfl⟩

theorem emits_writeLine (text : String) :
    (Run.writeLine text : Run Cause Unit).Emits () (text ++ "\n") :=
  emits_write (text ++ "\n")

/-- Texts that are written one after the other are written as one. -/
theorem emits_forM (texts : List String) :
    (texts.forM Run.write : Run Cause Unit).Emits () (String.join texts) := by
  induction texts with
  | nil => exact emits_pure ()
  | cons text rest ih =>
      rw [String.join_cons]
      exact (emits_write text).then ih

omit [OfIoError Cause] in
/-- A run that answers comes to an answer and a trace. -/
theorem exists_of_isOk {part : Run Cause Answer} {trace : Trace}
    (answers : (part trace).1.isOk = true) : ∃ answer later, part trace = (.ok answer, later) := by
  rcases ran : part trace with ⟨stop | answer, later⟩
  · rw [ran] at answers
    cases answers
  · exact ⟨answer, later, rfl⟩

/-! ## What printing leaves alone -/

/-- A run comes to that answer and leaves everything but the output as it was, or the output
refuses. -/
def Prints (part : Run Cause Answer) (answer : Answer) : Prop :=
  forall trace,
    (∃ sink : Sink, part trace = (.ok answer, { trace with out := sink }) ∧
      sink.accepts = trace.out.accepts) ∨
    (¬ trace.out.TakesAll ∧ ∃ stop later, part trace = (.error stop, later))

omit [OfIoError Cause] in
theorem prints_pure (answer : Answer) : (pure answer : Run Cause Answer).Prints answer :=
  fun trace => Or.inl ⟨trace.out, rfl, rfl⟩

omit [OfIoError Cause] in
theorem prints_ofChecked {result : Except Fault Answer} {answer : Answer}
    (answered : result = .ok answer) : (ofChecked result : Run Cause Answer).Prints answer := by
  intro trace
  rw [answered]
  exact Or.inl ⟨trace.out, rfl, rfl⟩

theorem prints_writeLine (text : String) : (Run.writeLine text : Run Cause Unit).Prints () := by
  intro trace
  unfold Run.writeLine Run.write Run.request Sink.ask
  by_cases taken : trace.out.accepts trace.out.requests trace.out.text.utf8ByteSize
      (.write (text ++ "\n")) = true
  · rw [if_pos taken]
    exact Or.inl ⟨_, rfl, rfl⟩
  · rw [if_neg taken]
    exact Or.inr ⟨fun takes => taken (takes _ _ _), _, _, rfl⟩

namespace Prints

variable {part : Run Cause Answer} {answer : Answer}

omit [OfIoError Cause] in
/-- Parts that only print do so one after the other. -/
theorem bind {rest : Answer -> Run Cause Later} {last : Later} (first : part.Prints answer)
    (second : (rest answer).Prints last) : (part >>= rest).Prints last := by
  intro trace
  rcases first trace with ⟨sink, answered, same⟩ | ⟨refuses, stop, later, stopped⟩
  · rw [bind_of_ok answered]
    rcases second { trace with out := sink } with ⟨drain, ended, still⟩ | ⟨refuses, stopped⟩
    · exact Or.inl ⟨drain, ended, still.trans same⟩
    · refine Or.inr ⟨fun takes => refuses ?_, stopped⟩
      unfold Sink.TakesAll
      rw [same]
      exact takes
  · exact Or.inr ⟨refuses, stop, later, bind_of_error stopped⟩

omit [OfIoError Cause] in
/-- Where such a run comes to an answer, only the output differs. -/
theorem exists_sink (prints : part.Prints answer) {given : Answer} {trace later : Trace}
    (ran : part trace = (.ok given, later)) : ∃ sink, later = { trace with out := sink } := by
  rcases prints trace with ⟨sink, answered, -⟩ | ⟨-, stop, other, stopped⟩
  · cases answered.symm.trans ran
    exact ⟨sink, rfl⟩
  · cases stopped.symm.trans ran

omit [OfIoError Cause] in
/-- Where the output takes all, such a run comes to its answer. -/
theorem answers (prints : part.Prints answer) {trace : Trace} (takes : trace.out.TakesAll) :
    ∃ sink : Sink, part trace = (.ok answer, { trace with out := sink }) ∧ sink.TakesAll := by
  rcases prints trace with ⟨sink, answered, same⟩ | ⟨refuses, -⟩
  · refine ⟨sink, answered, ?_⟩
    unfold Sink.TakesAll
    rw [same]
    exact takes
  · exact absurd takes refuses

end Prints

end Run
end MemoryProbe
