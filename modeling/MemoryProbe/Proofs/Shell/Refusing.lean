import MemoryProbe.Proofs.Shell.Conversation

namespace MemoryProbe

/-!
Sessions over an output that refuses.  A command asks the output for the same requests whatever
the output, up to the first that is refused.  Outside the work of a command a refusal is passed
on, and ends the session.  Within the work it is one more failure of the command: it is printed,
and if that is taken the session goes on, with the rest of the command's output lost.  So it is
passed on only where the message or the separator behind it is refused as well.
-/

open Run

/-! ## Refusals -/

namespace Sink

/-- Behind each refusal the next request is refused as well. -/
def StaysShut (sink : Sink) : Prop :=
  forall requests held wanted, sink.accepts requests held wanted = false ->
    forall next, sink.accepts (requests + 1) held next = false

/-- What is asked of the output next is refused, whatever it is. -/
def Shut (sink : Sink) : Prop :=
  forall wanted, (sink.ask wanted).1 = false

theorem Shut.refuses {sink : Sink} (shut : sink.Shut) (request : SinkRequest)
    (rest : List SinkRequest) : (sink.askAll (request :: rest)).1 = false := by
  have unmet : sink.ask request = (false, (sink.ask request).2) := Prod.ext (shut request) rfl
  rw [askAll_of_refused unmet]

namespace StaysShut

variable {sink : Sink}

theorem shut_of_ask (stays : sink.StaysShut) {wanted : SinkRequest} {refused : Sink}
    (unmet : sink.ask wanted = (false, refused)) : refused.Shut := by
  unfold ask at unmet
  split at unmet
  · cases unmet
  · rename_i declined
    cases unmet
    intro next
    unfold ask
    rw [if_neg]
    rw [stays _ _ _ (Bool.eq_false_iff.mpr declined) next]
    decide

theorem of_met (stays : sink.StaysShut) {wanted : SinkRequest} {taken : Sink}
    (met : sink.ask wanted = (true, taken)) : taken.StaysShut := by
  unfold ask at met
  split at met
  · cases met
    exact stays
  · cases met

/-- The output that refused one of some requests refuses what comes behind them. -/
theorem shut (stays : sink.StaysShut) {requests : List SinkRequest} {refused : Sink}
    (unmet : sink.askAll requests = (false, refused)) : refused.Shut := by
  induction requests generalizing sink with
  | nil => cases unmet
  | cons wanted rest ih =>
      rcases asked : sink.ask wanted with ⟨_ | _, later⟩
      · rw [askAll_of_refused asked] at unmet
        cases unmet
        exact stays.shut_of_ask asked
      · rw [askAll_of_met asked] at unmet
        exact ih (stays.of_met asked) unmet

end StaysShut

/-- What asking for some requests comes to where a refusal is passed on, and the output
afterwards. -/
def passedOn (sink : Sink) (requests : List SinkRequest) : Except (Halt IoError) Unit × Sink :=
  match sink.askAll requests with
  | (true, taken) => (.ok (), taken)
  | (false, refused) => (.error (.failure .sinkFull), refused)

theorem passedOn_of_refused {sink : Sink} {requests : List SinkRequest}
    (unmet : (sink.askAll requests).1 = false) :
    (sink.passedOn requests).1 = .error (.failure .sinkFull) := by
  unfold passedOn
  rcases asked : sink.askAll requests with ⟨_ | _, later⟩
  · rfl
  · rw [asked] at unmet
    cases unmet

end Sink

theorem Run.Wants.ran {part : Run IoError Unit} {requests : List SinkRequest}
    (wants : part.Wants requests (.ok ())) (trace : Trace) (sink : Sink) :
    part { trace with out := sink } =
      ((sink.passedOn requests).1, { trace with out := (sink.passedOn requests).2 }) := by
  unfold Sink.passedOn
  rcases wants { trace with out := sink } with ⟨taken, asked, came⟩ | ⟨refused, asked, came⟩
  · rw [came, asked]
  · rw [came, asked]
    rfl

namespace Shell

/-! ## Commands that are carried out -/

/-- Print the failure of a command, and end its output. -/
def close (outcome : Except CommandError Unit) : Run IoError Unit := do
  match outcome with
  | .ok () => pure ()
  | .error cause => Run.writeLine cause.message
  Run.writeLine (separator ++ "\n")

/-- What the end of a command asks for: its failure, if it failed, and the separator. -/
def closing : Except CommandError Unit -> List SinkRequest
  | .ok () => [.write (separator ++ "\n" ++ "\n")]
  | .error cause => [.write (cause.message ++ "\n"), .write (separator ++ "\n" ++ "\n")]

theorem wants_close (outcome : Except CommandError Unit) :
    (close outcome).Wants (closing outcome) (.ok ()) := by
  rcases outcome with cause | done
  · exact (wants_writeLine cause.message).bind (wants_writeLine (separator ++ "\n"))
  · exact wants_writeLine (separator ++ "\n")

/-- What a command comes to over an output, and the output afterwards, where its work asks for
some requests and has some outcome.  A fault stays a fault.  Work that is done or has failed is
closed, and a refusal there is passed on.  Work that the output cuts short is closed likewise,
as if the command itself had failed. -/
inductive Closes (requests : List SinkRequest) (outcome : Except (Halt CommandError) Unit)
    (sink : Sink) : Except (Halt IoError) Unit × Sink -> Prop where
  | faults (kind : Fault) (taken : Sink) (met : sink.askAll requests = (true, taken))
    (stopped : outcome = .error (.fault kind)) :
    Closes requests outcome sink (.error (.fault kind), taken)
  | done (taken : Sink) (met : sink.askAll requests = (true, taken)) (came : outcome = .ok ()) :
    Closes requests outcome sink (taken.passedOn (closing (.ok ())))
  | failed (cause : CommandError) (taken : Sink) (met : sink.askAll requests = (true, taken))
    (came : outcome = .error (.failure cause)) :
    Closes requests outcome sink (taken.passedOn (closing (.error cause)))
  | cut (cause : CommandError) (refused : Sink) (unmet : sink.askAll requests = (false, refused))
    (tells : cause.TellsRefusal) :
    Closes requests outcome sink (refused.passedOn (closing (.error cause)))

/-- Where the output stays shut, a refusal within the work of a command is passed on as well. -/
theorem Closes.of_staysShut {requests : List SinkRequest}
    {outcome : Except (Halt CommandError) Unit} {sink : Sink}
    {ended : Except (Halt IoError) Unit × Sink} (closes : Closes requests outcome sink ended)
    (stays : sink.StaysShut) (unmet : (sink.askAll requests).1 = false) :
    ended.1 = .error (.failure .sinkFull) := by
  have never : forall {taken}, sink.askAll requests ≠ (true, taken) := by
    intro taken met
    rw [met] at unmet
    cases unmet
  cases closes with
  | faults kind taken met stopped => exact absurd met never
  | done taken met came => exact absurd met never
  | failed cause taken met came => exact absurd met never
  | cut cause refused unmet tells =>
      exact Sink.passedOn_of_refused ((stays.shut unmet).refuses _ _)

variable (shell : Shell) (trace : Trace)

theorem perform_eq (pid : UInt32) (command : ShellCommand) :
    shell.perform pid command = Run.attempt (shell.dispatch pid command) >>= close :=
  rfl

/-- A command is carried out and closed. -/
theorem exists_closes (pid : UInt32) (command : ShellCommand) :
    ∃ requests outcome,
      (shell.dispatch pid command { trace with out := Sink.unlimited }).1 = outcome ∧
      (shell.dispatch pid command { trace with out := Sink.unlimited }).2.out.text =
        Sink.additions requests ∧
      forall sink, Closes requests outcome sink
        ((shell.perform pid command { trace with out := sink }).1,
          (shell.perform pid command { trace with out := sink }).2.out) := by
  rcases shell.recites_dispatch pid command trace with ⟨requests, outcome, later, asks⟩
  rcases @Sink.askAll_of_takesAll Sink.unlimited (fun _ _ _ => rfl) requests with
    ⟨all, whole, -, text⟩
  have alone : shell.dispatch pid command { trace with out := Sink.unlimited } =
      (outcome, { later with out := all }) := by
    rcases asks Sink.unlimited with ⟨taken, met, came⟩ | ⟨refused, _, _, unmet, -, -⟩
    · cases whole.symm.trans met
      exact came
    · cases whole.symm.trans unmet
  refine ⟨requests, outcome, ?_, ?_, fun sink => ?_⟩
  · rw [alone]
  · rw [alone]
    exact text.trans String.empty_append
  · rw [perform_eq]
    rcases asks sink with ⟨taken, met, came⟩ | ⟨refused, cause, stopped, unmet, tells, came⟩
    · rcases outcome with ⟨cause | kind⟩ | ⟨⟩
      · rw [bind_of_ok (attempt_of_failure came), (wants_close _).ran]
        exact .failed cause taken met rfl
      · rw [bind_of_error (attempt_of_fault came)]
        exact .faults kind taken met rfl
      · rw [bind_of_ok (attempt_of_ok came), (wants_close _).ran]
        exact .done taken met rfl
    · rw [bind_of_ok (attempt_of_failure came), (wants_close _).ran]
      exact .cut cause refused unmet tells

/-! ## Sessions -/

/-- The process that a command is carried out about, if it is carried out. -/
def subject? (session : Session) (command : ShellCommand) : Option UInt32 :=
  match command with
  | .empty => none
  | .selectPid _ => none
  | command => if command.needsPid then session.pid else some (session.pid.getD 0)

/-- What acting on a command comes to over an output, and the output afterwards. -/
def execution (session : Session) (command : ShellCommand) (sink : Sink) :
    Except (Halt IoError) Unit × Sink :=
  ((shell.execute command session { trace with out := sink }).1.1,
    (shell.execute command session { trace with out := sink }).2.out)

theorem execution_of_subject {session : Session} {command : ShellCommand} {pid : UInt32}
    (found : subject? session command = some pid) (sink : Sink) :
    shell.execution trace session command sink =
      ((shell.perform pid command { trace with out := sink }).1,
        (shell.perform pid command { trace with out := sink }).2.out) := by
  rcases session with ⟨selected⟩
  cases command with
  | empty => cases found
  | selectPid pid => cases found
  | _ => cases selected <;> cases found <;> rfl

/-- The line that is written about a command that is not carried out, if any is. -/
def notice : ShellCommand -> List SinkRequest
  | .empty => []
  | .selectPid pid => [.write ("Selected PID " ++ toString pid.toNat ++ "\n" ++ "\n")]
  | _ => [.write ("Select the PID first!\n" ++ "\n")]

theorem execution_of_no_subject {session : Session} {command : ShellCommand}
    (idle : subject? session command = none) (sink : Sink) :
    shell.execution trace session command sink = sink.passedOn (notice command) := by
  rcases session with ⟨selected⟩
  have line : forall text : String,
      (((Run.writeLine text : Run IoError Unit) { trace with out := sink }).1,
        ((Run.writeLine text : Run IoError Unit) { trace with out := sink }).2.out) =
      sink.passedOn [.write (text ++ "\n")] := by
    intro text
    rw [(wants_writeLine text).ran]
  cases command with
  | empty => rfl
  | selectPid pid => exact line _
  | _ => cases selected <;> cases idle <;> exact line _

section Sessions

variable {shell}

/-- What comes behind an exchange can be cut off. -/
theorem exchange_bind (line : List Char) (part : Talk Unit) (rest : Unit -> Talk Unit) :
    shell.exchange line (part >>= rest) = shell.exchange line part >>= rest := by
  funext session trace
  rw [exchange_apply, Talk.bind_apply, exchange_apply]
  rcases prompt trace with ⟨stop | asked, later⟩
  · rfl
  · dsimp only
    unfold replyThen
    dsimp only
    rcases shell.reply session.pid line later with ⟨stop | told, last⟩
    · rfl
    · exact Talk.bind_apply _ _ _ _

theorem foldr_exchange_bind (lines : List (List Char)) (part : Talk Unit)
    (rest : Unit -> Talk Unit) :
    lines.foldr shell.exchange (part >>= rest) = lines.foldr shell.exchange part >>= rest := by
  induction lines with
  | nil => rfl
  | cons line others ih => rw [List.foldr_cons, ih, exchange_bind, List.foldr_cons]

/-- A session up to the command of a line: the help, an exchange for each line before it, and
a prompt. -/
def upTo (shell : Shell) (before : List (List Char)) : Talk Unit :=
  talk writeHelp >>= fun _ => before.foldr shell.exchange (talk prompt)

/-- A session acts on the command of each line that it acts on. -/
theorem exists_run_eq {script : List UInt8} {before unheard : List (List Char)}
    {line : List Char} {command : ShellCommand}
    (acted : heard (Text.byteLines script) = before ++ line :: unheard)
    (asked : ShellCommand.ofLine line = .ok command) :
    ∃ rest : Talk Unit, shell.run script =
      shell.upTo before >>= fun _ => shell.execute command >>= fun _ => rest := by
  refine ⟨unheard.foldr shell.exchange (ending (Text.byteLines script)) >>= fun _ =>
    talk (Run.writeLine ""), ?_⟩
  have turn : shell.exchange line (unheard.foldr shell.exchange (ending (Text.byteLines script))) =
      talk prompt >>= fun _ => shell.execute command >>= fun _ =>
        unheard.foldr shell.exchange (ending (Text.byteLines script)) := by
    unfold exchange
    rw [execute_bind asked]
  have converses : shell.converse (Text.byteLines script) =
      before.foldr shell.exchange (talk prompt) >>= fun _ => shell.execute command >>= fun _ =>
        unheard.foldr shell.exchange (ending (Text.byteLines script)) := by
    rw [converse_eq_foldr, acted, List.foldr_append, List.foldr_cons, turn, foldr_exchange_bind]
  unfold run upTo
  rw [converses]
  simp only [bind_assoc]

/-- A session ends with what the command of a line that it acts on stops with. -/
theorem run_of_stopped {script : List UInt8} {before unheard : List (List Char)}
    {line : List Char} {command : ShellCommand} {begun session : Session} {start trace : Trace}
    {stop : Halt IoError} (acted : heard (Text.byteLines script) = before ++ line :: unheard)
    (asked : ShellCommand.ofLine line = .ok command)
    (came : shell.upTo before begun start = ((.ok (), session), trace))
    (stopped : (shell.execute command session trace).1.1 = .error stop) :
    (shell.run script begun start).1.1 = .error stop := by
  rcases exists_run_eq acted asked with ⟨rest, ran⟩
  rw [ran, Talk.bind_apply, came]
  exact Talk.bind_of_stopped stopped fun _ => rest

end Sessions

/-- What a command writes outside its work is never refused in silence: the line about a
selection, the message of a failure and the separator are asked for, and a refusal is passed on,
which ends the session.  A refusal within the work of a command becomes the failure of the
command.  It is printed, and passed on only if its message or the separator is refused as well;
an output that stays shut refuses them. -/
theorem execute_passes_on_refusals (shell : Shell) (trace : Trace) (session : Session)
    (command : ShellCommand) :
    (subject? session command = none -> forall sink,
      shell.execution trace session command sink = sink.passedOn (notice command)) ∧
    (forall pid, subject? session command = some pid -> ∃ requests outcome,
      (shell.dispatch pid command { trace with out := Sink.unlimited }).1 = outcome ∧
      (shell.dispatch pid command { trace with out := Sink.unlimited }).2.out.text =
        Sink.additions requests ∧
      forall sink,
        Closes requests outcome sink (shell.execution trace session command sink) ∧
        (sink.StaysShut -> (sink.askAll requests).1 = false ->
          (shell.execution trace session command sink).1 = .error (.failure .sinkFull))) ∧
    (forall script before line unheard begun start stop,
      heard (Text.byteLines script) = before ++ line :: unheard ->
      ShellCommand.ofLine line = .ok command ->
      shell.upTo before begun start = ((.ok (), session), trace) ->
      (shell.execution trace session command trace.out).1 = .error stop ->
      (shell.run script begun start).1.1 = .error stop) := by
  refine ⟨fun idle sink => shell.execution_of_no_subject trace idle sink, fun pid found => ?_,
    fun script before line unheard begun start stop acted asked came stopped =>
      run_of_stopped acted asked came stopped⟩
  rcases shell.exists_closes trace pid command with ⟨requests, outcome, alone, text, closes⟩
  refine ⟨requests, outcome, alone, text, fun sink => ?_⟩
  have ended := closes sink
  rw [<- shell.execution_of_subject trace found] at ended
  exact ⟨ended, ended.of_staysShut⟩

/-- An output that refuses one request and takes all others. -/
def hiccup (place : Nat) : Sink where
  accepts requests _ _ := requests != place

/-- An output that takes some requests and refuses all others. -/
def closedFrom (place : Nat) : Sink where
  accepts requests _ _ := decide (requests < place)

theorem closedFrom_staysShut (place : Nat) : (closedFrom place).StaysShut := by
  intro requests held wanted refused next
  have reached : ¬ requests < place := of_decide_eq_false refused
  exact decide_eq_false (by omega)

/-- An output that is closed refuses to name a selected process and refuses the help.  One that
closes behind the first prompt refuses the help that the first line asks for, and the session
ends with the refusal. -/
theorem execute_passes_on_refusals_of_closed :
    (bareShell.execution {} {} (.selectPid 7) (closedFrom 0)).1 = .error (.failure .sinkFull) ∧
    (bareShell.execution {} {} .help (closedFrom 0)).1 = .error (.failure .sinkFull) ∧
    (bareShell.run (Text.utf8Bytes "h\nq\n".toList) {} { out := closedFrom 15 }).1.1 =
      .error (.failure .sinkFull) := by
  have shut : (closedFrom 0).Shut := fun _ => rfl
  have named := (execute_passes_on_refusals bareShell {} {} (.selectPid 7)).1 rfl (closedFrom 0)
  rcases (execute_passes_on_refusals bareShell {} {} .help).2.1 0 rfl with
    ⟨requests, outcome, -, text, closes⟩
  have written : Sink.additions requests ≠ "" := by
    rw [<- text]
    decide +kernel
  have unmet : ((closedFrom 0).askAll requests).1 = false := by
    cases requests with
    | nil => exact absurd rfl written
    | cons first rest => exact shut.refuses first rest
  refine ⟨?_, (closes (closedFrom 0)).2 (closedFrom_staysShut 0) unmet, ?_⟩
  · rw [named]
    exact Sink.passedOn_of_refused (shut.refuses _ _)
  · -- The state behind the prompt is kept opaque: it is evaluated by the kernel only.
    obtain ⟨begun, began⟩ : ∃ begun, bareShell.upTo [] {} { out := closedFrom 15 } = begun :=
      ⟨_, rfl⟩
    have prompted : begun.1 = (.ok (), {}) := by
      rw [<- began]
      decide +kernel
    have stopped : (bareShell.execution begun.2 {} .help begun.2.out).1 =
        .error (.failure .sinkFull) := by
      rw [<- began]
      decide +kernel
    rcases begun with ⟨_, middle⟩
    cases prompted
    have acted : heard (Text.byteLines (Text.utf8Bytes "h\nq\n".toList)) = ["h".toList] := by
      decide +kernel
    exact (execute_passes_on_refusals bareShell middle {} .help).2.2 _ [] _ [] {}
      { out := closedFrom 15 } _ acted rfl began stopped

/-- The output refuses the first line of the help that the line asks for and takes everything
else: the refusal is printed, and the session comes to its end. -/
theorem refused_help_is_passed_over :
    (bareShell.dispatch 0 .help { out := hiccup 0 }).1 =
      .error (.failure (.output .sinkFull)) ∧
    bareShell.execution {} {} .help (hiccup 0) =
      (.ok (), { hiccup 0 with requests := 3, text := "sink full\n" ++ separator ++ "\n\n" }) ∧
    (bareShell.run (Text.utf8Bytes "h\nq\n".toList) {} { out := hiccup 15 }).1.1 = .ok () ∧
    (bareShell.run (Text.utf8Bytes "h\nq\n".toList) {} { out := hiccup 15 }).2.out.text =
      helpText ++ ">: " ++ ("sink full\n" ++ separator ++ "\n\n") ++ ">: " ++ "\n" := by
  refine ⟨?_, ?_, ?_, ?_⟩
  · decide +kernel
  · rfl
  · decide +kernel
  · decide +kernel

end Shell
end MemoryProbe
