import MemoryProbe.Proofs.Mirroring

namespace MemoryProbe

/-!
What a run asks its output for.  A run never looks at the text that was taken, so what it
asks for is the same list of requests whatever the output, up to the first request that is
refused.  A part that only prints asks for the same whatever the whole trace; a silent part
neither asks for anything nor looks at the output.
-/

namespace Sink

/-- Ask for one thing after the other, up to the first that is refused. -/
def askAll (sink : Sink) : List SinkRequest -> Bool × Sink
  | [] => (true, sink)
  | request :: rest =>
    match sink.ask request with
    | (true, taken) => taken.askAll rest
    | (false, refused) => (false, refused)

/-- The text that met requests add together. -/
def additions (requests : List SinkRequest) : String :=
  String.join (requests.map addition)

theorem additions_cons (request : SinkRequest) (rest : List SinkRequest) :
    additions (request :: rest) = addition request ++ additions rest := by
  unfold additions
  rw [List.map_cons, String.join_cons]

theorem additions_write (texts : List String) :
    additions (texts.map .write) = String.join texts := by
  unfold additions
  rw [List.map_map]
  exact congrArg String.join (List.map_id texts)

theorem join_one (text : String) : String.join [text] = text := by
  rw [String.join_cons]
  exact String.append_empty

theorem ask_of_accepts {sink : Sink} {request : SinkRequest}
    (met : sink.accepts sink.requests sink.text.utf8ByteSize request = true) :
    sink.ask request =
      (true, { sink with requests := sink.requests + 1, text := sink.text ++ addition request }) :=
  if_pos met

theorem ask_of_refuses {sink : Sink} {request : SinkRequest}
    (refused : ¬ sink.accepts sink.requests sink.text.utf8ByteSize request = true) :
    sink.ask request = (false, { sink with requests := sink.requests + 1 }) :=
  if_neg refused

theorem askAll_of_met {sink taken : Sink} {request : SinkRequest}
    (met : sink.ask request = (true, taken)) (rest : List SinkRequest) :
    sink.askAll (request :: rest) = taken.askAll rest := by
  rw [askAll, met]

theorem askAll_of_refused {sink refused : Sink} {request : SinkRequest}
    (unmet : sink.ask request = (false, refused)) (rest : List SinkRequest) :
    sink.askAll (request :: rest) = (false, refused) := by
  rw [askAll, unmet]

/-- Requests that are met are followed by the rest. -/
theorem askAll_append_of_met {sink taken : Sink} {first : List SinkRequest}
    (met : sink.askAll first = (true, taken)) (second : List SinkRequest) :
    sink.askAll (first ++ second) = taken.askAll second := by
  induction first generalizing sink with
  | nil =>
      cases met
      rfl
  | cons request rest ih =>
      rcases asked : sink.ask request with ⟨_ | _, later⟩
      · rw [askAll_of_refused asked] at met
        cases met
      · rw [askAll_of_met asked] at met
        rw [List.cons_append, askAll_of_met asked, ih met]

theorem askAll_append_of_refused {sink refused : Sink} {first : List SinkRequest}
    (unmet : sink.askAll first = (false, refused)) (second : List SinkRequest) :
    sink.askAll (first ++ second) = (false, refused) := by
  induction first generalizing sink with
  | nil => cases unmet
  | cons request rest ih =>
      rcases asked : sink.ask request with ⟨_ | _, later⟩
      · rw [askAll_of_refused asked] at unmet
        rw [List.cons_append, askAll_of_refused asked, unmet]
      · rw [askAll_of_met asked] at unmet
        rw [List.cons_append, askAll_of_met asked, ih unmet]

/-- Writing texts one after the other is asking for them. -/
theorem writeAll_eq (sink : Sink) (texts : List String) :
    sink.writeAll texts = sink.askAll (texts.map .write) := by
  induction texts generalizing sink with
  | nil => rfl
  | cons text rest ih =>
      unfold writeAll
      rw [List.map_cons, askAll]
      rcases sink.ask (.write text) with ⟨_ | _, later⟩
      · rfl
      · exact ih later

/-- A sink that takes all holds everything afterwards, and still takes all. -/
theorem askAll_of_takesAll {sink : Sink} (takes : sink.TakesAll) (requests : List SinkRequest) :
    ∃ taken : Sink, sink.askAll requests = (true, taken) ∧ taken.TakesAll ∧
      taken.text = sink.text ++ additions requests := by
  induction requests generalizing sink with
  | nil => exact ⟨sink, rfl, takes, String.append_empty.symm⟩
  | cons request rest ih =>
      have met := ask_of_accepts (takes sink.requests sink.text.utf8ByteSize request)
      rcases @ih { sink with
          requests := sink.requests + 1
          text := sink.text ++ addition request } takes with ⟨taken, all, stays, text⟩
      refine ⟨taken, (askAll_of_met met rest).trans all, stays, ?_⟩
      rw [text, additions_cons, String.append_assoc]

end Sink

namespace Run

variable {Cause Answer Later : Type}

section Printing

variable [OfIoError Cause]

/-- A part that asks the output for these requests and for nothing else, comes to that outcome,
and leaves all else in the trace alone. -/
def Wants (part : Run Cause Answer) (requests : List SinkRequest)
    (outcome : Except (Halt Cause) Answer) : Prop :=
  forall trace,
    (∃ taken, trace.out.askAll requests = (true, taken) ∧
      part trace = (outcome, { trace with out := taken })) ∨
    (∃ refused, trace.out.askAll requests = (false, refused) ∧
      part trace =
        (.error (.failure (OfIoError.ofIoError .sinkFull)), { trace with out := refused }))

theorem wants_of_const {part : Run Cause Answer} {outcome : Except (Halt Cause) Answer}
    (same : forall trace, part trace = (outcome, trace)) : part.Wants [] outcome :=
  fun trace => Or.inl ⟨trace.out, rfl, same trace⟩

theorem wants_request (wanted : SinkRequest) :
    (request wanted : Run Cause Unit).Wants [wanted] (.ok ()) := by
  intro trace
  unfold request
  rcases asked : trace.out.ask wanted with ⟨_ | _, later⟩
  · exact Or.inr ⟨later, Sink.askAll_of_refused asked [], rfl⟩
  · exact Or.inl ⟨later, Sink.askAll_of_met asked [], rfl⟩

theorem wants_writeLine (text : String) :
    (writeLine text : Run Cause Unit).Wants [.write (text ++ "\n")] (.ok ()) :=
  wants_request _

/-- Parts that ask for something do so one after the other. -/
theorem Wants.bind {part : Run Cause Answer} {rest : Answer -> Run Cause Later}
    {requests more : List SinkRequest} {answer : Answer} {outcome : Except (Halt Cause) Later}
    (first : part.Wants requests (.ok answer)) (second : (rest answer).Wants more outcome) :
    (part >>= rest).Wants (requests ++ more) outcome := by
  intro trace
  rcases first trace with ⟨taken, asked, came⟩ | ⟨refused, asked, came⟩
  · rw [bind_of_ok came, Sink.askAll_append_of_met asked]
    exact second { trace with out := taken }
  · exact Or.inr ⟨refused, Sink.askAll_append_of_refused asked more, bind_of_error came⟩

/-- A part that stops is the last one. -/
theorem Wants.bind_of_error {part : Run Cause Answer} {requests : List SinkRequest}
    {stop : Halt Cause} (first : part.Wants requests (.error stop))
    (rest : Answer -> Run Cause Later) : (part >>= rest).Wants requests (.error stop) := by
  intro trace
  rcases first trace with ⟨taken, asked, came⟩ | ⟨refused, asked, came⟩
  · exact Or.inl ⟨taken, asked, Run.bind_of_error came⟩
  · exact Or.inr ⟨refused, asked, Run.bind_of_error came⟩

theorem wants_forM {Entry : Type} {entries : List Entry} {print : Entry -> Run Cause Unit}
    {wanted : Entry -> List SinkRequest}
    (each : forall entry, (print entry).Wants (wanted entry) (.ok ())) :
    (entries.forM print).Wants (entries.flatMap wanted) (.ok ()) := by
  induction entries with
  | nil => exact wants_of_const fun _ => rfl
  | cons entry rest ih => exact (each entry).bind ih

/-- An output that takes all takes what is asked for. -/
theorem Wants.of_takesAll {part : Run Cause Answer} {requests : List SinkRequest}
    {outcome : Except (Halt Cause) Answer} (wants : part.Wants requests outcome) (trace : Trace)
    {sink : Sink} (takes : sink.TakesAll) :
    ∃ taken : Sink, part { trace with out := sink } = (outcome, { trace with out := taken }) ∧
      taken.TakesAll ∧ taken.text = sink.text ++ Sink.additions requests := by
  rcases Sink.askAll_of_takesAll takes requests with ⟨all, met, stays, text⟩
  rcases wants { trace with out := sink } with ⟨taken, asked, came⟩ | ⟨refused, asked, -⟩
  · cases met.symm.trans asked
    exact ⟨all, came, stays, text⟩
  · cases met.symm.trans asked

/-- An output that takes all takes a line. -/
theorem writeLine_of_takesAll (trace : Trace) {sink : Sink} (takes : sink.TakesAll)
    (text : String) :
    ∃ taken : Sink, (writeLine text : Run Cause Unit) { trace with out := sink } =
        (.ok (), { trace with out := taken }) ∧
      taken.TakesAll ∧ taken.text = sink.text ++ (text ++ "\n") := by
  have wants : (writeLine text : Run Cause Unit).Wants [.write (text ++ "\n")] (.ok ()) :=
    wants_writeLine text
  rcases wants.of_takesAll trace takes with ⟨taken, came, stays, written⟩
  have line : Sink.additions [.write (text ++ "\n")] = text ++ "\n" := Sink.join_one _
  exact ⟨taken, came, stays, line ▸ written⟩

/-- A part that only prints: what it asks for and comes to depends on nothing in the trace. -/
def Printing (part : Run Cause Answer) : Prop :=
  ∃ requests outcome, part.Wants requests outcome

theorem Wants.printing {part : Run Cause Answer} {requests : List SinkRequest}
    {outcome : Except (Halt Cause) Answer} (wants : part.Wants requests outcome) :
    part.Printing :=
  ⟨requests, outcome, wants⟩

theorem printing_pure (answer : Answer) : (pure answer : Run Cause Answer).Printing :=
  (wants_of_const fun _ => rfl).printing

theorem printing_halt (kind : Fault) : (halt kind : Run Cause Answer).Printing :=
  (wants_of_const fun _ => rfl).printing

theorem printing_ofExcept (result : Except Cause Answer) : (ofExcept result).Printing :=
  (wants_of_const fun _ => rfl).printing

theorem printing_ofChecked (result : Except Fault Answer) :
    (ofChecked result : Run Cause Answer).Printing :=
  (wants_of_const fun _ => rfl).printing

theorem printing_ofHalting (result : Except (Halt Cause) Answer) : (ofHalting result).Printing :=
  (wants_of_const fun _ => rfl).printing

theorem printing_write (text : String) : (write text : Run Cause Unit).Printing :=
  (wants_request _).printing

theorem printing_writeLine (text : String) : (writeLine text : Run Cause Unit).Printing :=
  (wants_writeLine text).printing

/-- Parts that only print do so one after the other. -/
theorem Printing.bind {part : Run Cause Answer} {rest : Answer -> Run Cause Later}
    (first : part.Printing) (second : forall answer, (rest answer).Printing) :
    (part >>= rest).Printing := by
  rcases first with ⟨requests, stop | answer, wants⟩
  · exact (wants.bind_of_error rest).printing
  · rcases second answer with ⟨more, outcome, goesOn⟩
    exact (wants.bind goesOn).printing

theorem Printing.then {part : Run Cause Unit} {rest : Run Cause Later}
    (first : part.Printing) (second : rest.Printing) : (part >>= fun _ => rest).Printing :=
  first.bind fun _ => second

theorem printing_forM {Entry : Type} {entries : List Entry} {print : Entry -> Run Cause Unit}
    (each : forall entry, (print entry).Printing) : (entries.forM print).Printing := by
  induction entries with
  | nil => exact printing_pure ()
  | cons entry rest ih => exact (each entry).then ih

end Printing

/-- A part that takes no notice of the diagnostics and of the number of reads. -/
def Unaware (part : Run Cause Answer) : Prop :=
  forall sink count,
    Mirrors (fun trace => { trace with diagnostics := sink, reads := count }) part part

namespace Unaware

variable {part : Run Cause Answer}

/-- What a part takes no notice of stays as it is. -/
theorem leaves (unaware : part.Unaware) (trace : Trace) :
    (part trace).2.diagnostics = trace.diagnostics ∧ (part trace).2.reads = trace.reads := by
  have same := unaware trace.diagnostics trace.reads trace
  constructor
  · exact congrArg (fun result => result.2.diagnostics) same
  · exact congrArg (fun result => result.2.reads) same

theorem reads_eq (unaware : part.Unaware) {trace later : Trace}
    {outcome : Except (Halt Cause) Answer} (ran : part trace = (outcome, later)) :
    later.reads = trace.reads := by
  rw [<- (unaware.leaves trace).2, ran]

theorem mirrors (unaware : part.Unaware) (sink : Sink) :
    Mirrors (fun trace => { trace with diagnostics := sink }) part part := by
  intro trace
  refine (unaware sink trace.reads trace).trans ?_
  dsimp only
  rw [(unaware.leaves trace).2]

/-- Parts that take no notice do so one after the other. -/
theorem bind {rest : Answer -> Run Cause Later} (first : part.Unaware)
    (second : forall answer, (rest answer).Unaware) : (part >>= rest).Unaware :=
  fun sink count => (first sink count).bind fun answer _ => second answer sink count

theorem pure (answer : Answer) : (Pure.pure answer : Run Cause Answer).Unaware :=
  fun _ _ => .const (.ok answer) fun _ => rfl

end Unaware

/-- A part that looks neither at the output and the diagnostics nor at the number of reads. -/
def Inward (part : Run Cause Answer) : Prop :=
  forall sink drain count, Mirrors
    (fun trace => { trace with out := sink, diagnostics := drain, reads := count }) part part

namespace Inward

variable {part : Run Cause Answer}

theorem bind {rest : Answer -> Run Cause Later} (first : part.Inward)
    (second : forall answer, (rest answer).Inward) : (part >>= rest).Inward :=
  fun sink drain count => (first sink drain count).bind fun answer _ =>
    second answer sink drain count

theorem pure (answer : Answer) : (Pure.pure answer : Run Cause Answer).Inward :=
  fun _ _ _ => .const (.ok answer) fun _ => rfl

/-- Such a part leaves all that as it is. -/
theorem leaves (inward : part.Inward) (trace : Trace) :
    (part trace).2.out = trace.out ∧ (part trace).2.diagnostics = trace.diagnostics ∧
      (part trace).2.reads = trace.reads := by
  have same := inward trace.out trace.diagnostics trace.reads trace
  refine ⟨?_, ?_, ?_⟩
  · exact congrArg (fun result => result.2.out) same
  · exact congrArg (fun result => result.2.diagnostics) same
  · exact congrArg (fun result => result.2.reads) same

theorem silent (inward : part.Inward) : Silent part := by
  intro sink trace
  refine (inward sink trace.diagnostics trace.reads trace).trans ?_
  rcases inward.leaves trace with ⟨-, told, read⟩
  dsimp only
  rw [told, read]

theorem unaware (inward : part.Inward) : part.Unaware := by
  intro drain count trace
  refine (inward trace.out drain count trace).trans ?_
  dsimp only
  rw [(inward.leaves trace).1]

end Inward

/-- A part that only prints takes no notice of anything else. -/
theorem Printing.unaware [OfIoError Cause] {part : Run Cause Answer} (prints : part.Printing) :
    part.Unaware := by
  rcases prints with ⟨requests, outcome, wants⟩
  intro sink count trace
  rcases wants trace with ⟨taken, asked, came⟩ | ⟨refused, asked, came⟩
  · rcases wants { trace with diagnostics := sink, reads := count } with
      ⟨again, same, also⟩ | ⟨again, same, -⟩
    · cases asked.symm.trans same
      rw [also, came]
    · cases asked.symm.trans same
  · rcases wants { trace with diagnostics := sink, reads := count } with
      ⟨again, same, -⟩ | ⟨again, same, also⟩
    · cases asked.symm.trans same
    · cases asked.symm.trans same
      rw [also, came]

/-- A run that asks the output for the same requests whatever the output, up to the first that
is refused.  If none is, it comes to one outcome; else it fails for a cause that says so. -/
def Recites (cut : Cause -> Prop) (part : Run Cause Answer) : Prop :=
  forall trace : Trace, ∃ (requests : List SinkRequest)
      (outcome : Except (Halt Cause) Answer) (later : Trace), forall sink : Sink,
    (∃ taken, sink.askAll requests = (true, taken) ∧
      part { trace with out := sink } = (outcome, { later with out := taken })) ∨
    (∃ (refused : Sink) (cause : Cause) (stopped : Trace),
      sink.askAll requests = (false, refused) ∧ cut cause ∧
        part { trace with out := sink } =
          (.error (.failure cause), { stopped with out := refused }))

/-- The cause of failure that says that the output takes no more. -/
def IsRefusal [OfIoError Cause] (cause : Cause) : Prop :=
  cause = OfIoError.ofIoError .sinkFull

variable {cut : Cause -> Prop}

theorem Printing.recites [OfIoError Cause] {part : Run Cause Answer} (prints : part.Printing) :
    part.Recites IsRefusal := by
  rcases prints with ⟨requests, outcome, wants⟩
  refine fun trace => ⟨requests, outcome, trace, fun sink => ?_⟩
  rcases wants { trace with out := sink } with ⟨taken, asked, came⟩ | ⟨refused, asked, came⟩
  · exact Or.inl ⟨taken, asked, came⟩
  · exact Or.inr ⟨refused, _, trace, asked, rfl, came⟩

/-- A silent part asks for nothing. -/
theorem Recites.of_silent {part : Run Cause Answer} (silent : Silent part) :
    part.Recites cut :=
  fun trace => ⟨[], (part trace).1, (part trace).2, fun sink =>
    Or.inl ⟨sink, rfl, silent sink trace⟩⟩

theorem Recites.mono {wider : Cause -> Prop} {part : Run Cause Answer}
    (recites : part.Recites cut) (covers : forall cause, cut cause -> wider cause) :
    part.Recites wider := by
  intro trace
  rcases recites trace with ⟨requests, outcome, later, asks⟩
  refine ⟨requests, outcome, later, fun sink => ?_⟩
  rcases asks sink with taken | ⟨refused, cause, stopped, asked, cuts, came⟩
  · exact Or.inl taken
  · exact Or.inr ⟨refused, cause, stopped, asked, covers cause cuts, came⟩

/-- Runs ask for their requests one after the other. -/
theorem Recites.bind {part : Run Cause Answer} {rest : Answer -> Run Cause Later}
    (first : part.Recites cut) (second : forall answer, (rest answer).Recites cut) :
    (part >>= rest).Recites cut := by
  intro trace
  rcases first trace with ⟨requests, stop | answer, middle, begins⟩
  · refine ⟨requests, .error stop, middle, fun sink => ?_⟩
    rcases begins sink with ⟨taken, asked, came⟩ | ⟨refused, cause, stopped, asked, cuts, came⟩
    · exact Or.inl ⟨taken, asked, bind_of_error came⟩
    · exact Or.inr ⟨refused, cause, stopped, asked, cuts, bind_of_error came⟩
  · rcases second answer middle with ⟨more, outcome, later, goesOn⟩
    refine ⟨requests ++ more, outcome, later, fun sink => ?_⟩
    rcases begins sink with ⟨taken, asked, came⟩ | ⟨refused, cause, stopped, asked, cuts, came⟩
    · rw [bind_of_ok came, Sink.askAll_append_of_met asked]
      exact goesOn taken
    · exact Or.inr ⟨refused, cause, stopped, Sink.askAll_append_of_refused asked more, cuts,
        bind_of_error came⟩

/-- A part of which the failures are renamed asks for the same. -/
theorem Recites.widen {Narrow : Type} {narrow : Narrow -> Prop} {embed : Narrow -> Cause}
    {part : Run Narrow Answer} (recites : part.Recites narrow)
    (covers : forall cause, narrow cause -> cut (embed cause)) :
    (Run.widen embed part).Recites cut := by
  intro trace
  rcases recites trace with ⟨requests, outcome, later, asks⟩
  refine ⟨requests, outcome.mapError (Halt.mapCause embed), later, fun sink => ?_⟩
  unfold Run.widen
  rcases asks sink with ⟨taken, asked, came⟩ | ⟨refused, cause, stopped, asked, cuts, came⟩
  · refine Or.inl ⟨taken, asked, ?_⟩
    rw [came]
    cases outcome <;> rfl
  · refine Or.inr ⟨refused, embed cause, stopped, asked, covers cause cuts, ?_⟩
    rw [came]
    rfl

/-- A run that an output cannot refuse comes to one outcome, and adds one text to the output. -/
theorem Recites.of_takesAll {part : Run Cause Answer} (recites : part.Recites cut)
    (trace : Trace) :
    ∃ (outcome : Except (Halt Cause) Answer) (later : Trace) (added : String),
      forall sink : Sink, sink.TakesAll -> ∃ taken : Sink,
        part { trace with out := sink } = (outcome, { later with out := taken }) ∧
          taken.TakesAll ∧ taken.text = sink.text ++ added := by
  rcases recites trace with ⟨requests, outcome, later, asks⟩
  refine ⟨outcome, later, Sink.additions requests, fun sink takes => ?_⟩
  rcases Sink.askAll_of_takesAll takes requests with ⟨all, met, stays, text⟩
  rcases asks sink with ⟨taken, asked, came⟩ | ⟨refused, _, _, asked, -, -⟩
  · cases met.symm.trans asked
    exact ⟨all, came, stays, text⟩
  · cases met.symm.trans asked

end Run
end MemoryProbe
