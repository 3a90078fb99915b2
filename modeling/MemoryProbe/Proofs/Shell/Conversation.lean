import MemoryProbe.Machine.Staged
import MemoryProbe.Proofs.Shell.Dispatching
import MemoryProbe.Proofs.Shell.Notices
import MemoryProbe.Proofs.Shell.Replying
import MemoryProbe.Proofs.Text.Decoding

namespace MemoryProbe
namespace Shell

/-!
Whole sessions over an output that takes all.  A session is the help, an exchange for each
line that it acts on, and a last prompt.  What a command fails with is printed and forgotten;
only a line that selects a process changes the selection, and only a fault of a command ends
the session early.
-/

/-! ## One line -/

/-- A line asks for a command that is carried out: it is about the selected process, or needs
none. -/
structure Carries (selected : Option UInt32) (line : List Char) (command : ShellCommand) :
    Prop where
  asked : ShellCommand.ofLine line = .ok command
  carried : isCarriedOut command = true
  ready : command.needsPid = true -> selected ≠ none

/-- Carry out a command, with an output of its own. -/
def carriedOut (shell : Shell) (selected : Option UInt32) (command : ShellCommand)
    (trace : Trace) : Except (Halt CommandError) Unit × Trace :=
  shell.dispatch (selected.getD 0) command { trace with out := Sink.unlimited }

/-- What is written about a line, and the trace afterwards but for the output. -/
inductive Replies (shell : Shell) (selected : Option UInt32) (trace : Trace)
    (line : List Char) : String -> Trace -> Prop where
  | refused (cause : LineError) (asked : ShellCommand.ofLine line = .error cause) :
    Replies shell selected trace line (cause.message ++ "\n\n") trace
  | empty (asked : ShellCommand.ofLine line = .ok .empty) :
    Replies shell selected trace line "" trace
  | selects (pid : UInt32) (asked : ShellCommand.ofLine line = .ok (.selectPid pid)) :
    Replies shell selected trace line ("Selected PID " ++ toString pid.toNat ++ "\n\n") trace
  | lacks (command : ShellCommand) (asked : ShellCommand.ofLine line = .ok command)
    (needs : command.needsPid = true) (unselected : selected = none) :
    Replies shell selected trace line "Select the PID first!\n\n" trace
  | succeeds (command : ShellCommand) (later : Trace) (carries : Carries selected line command)
    (ran : shell.carriedOut selected command trace = (.ok (), later)) :
    Replies shell selected trace line (later.out.text ++ (separator ++ "\n\n")) later
  | fails (command : ShellCommand) (cause : CommandError) (later : Trace)
    (carries : Carries selected line command)
    (ran : shell.carriedOut selected command trace = (.error (.failure cause), later)) :
    Replies shell selected trace line
      (later.out.text ++ (cause.message ++ "\n") ++ (separator ++ "\n\n")) later

/-- A line asks for a command that meets a fault. -/
def Panics (shell : Shell) (selected : Option UInt32) (trace : Trace) (line : List Char)
    (kind : Fault) : Prop :=
  ∃ command later, Carries selected line command ∧
    shell.carriedOut selected command trace = (.error (.fault kind), later)

/-- A command that is carried out ends with the separator, whether it succeeds or fails. -/
theorem Replies.ends {shell : Shell} {selected : Option UInt32} {trace later : Trace}
    {line : List Char} {reply : String} {command : ShellCommand}
    (replies : shell.Replies selected trace line reply later)
    (carries : Carries selected line command) :
    ∃ front, reply = front ++ "\n" ++ (separator ++ "\n\n") := by
  have only : forall {other : ShellCommand}, ShellCommand.ofLine line = .ok other ->
      other = command := fun asked => Except.ok.inj (asked.symm.trans carries.asked)
  have carried := carries.carried
  cases replies with
  | refused cause asked => cases asked.symm.trans carries.asked
  | empty asked =>
      rw [<- only asked] at carried
      contradiction
  | selects pid asked =>
      rw [<- only asked] at carried
      contradiction
  | lacks other asked needs unselected =>
      rw [only asked] at needs
      exact absurd unselected (carries.ready needs)
  | succeeds other later also ran =>
      rcases endsLine_dispatch shell _ also.carried _ _ _ ran with ⟨front, ended⟩
      exact ⟨front, by rw [ended]⟩
  | fails other cause later also ran =>
      refine ⟨later.out.text ++ cause.message, ?_⟩
      rw [@String.append_assoc later.out.text cause.message]

/-- What is written about any other line does not have the separator as one of its lines. -/
theorem Replies.separator_notMem {shell : Shell} {selected : Option UInt32} {trace later : Trace}
    {line : List Char} {reply : String} (replies : shell.Replies selected trace line reply later)
    (unbroken : '\n' ∉ line) (idle : forall command, ¬ Carries selected line command) :
    separator.toList ∉ Text.lines reply.toList := by
  cases replies with
  | refused cause asked =>
      exact separator_notMem_lines (ShellCommand.lineFeed_notMem_message unbroken asked)
        cause.head?_message
  | empty asked => decide
  | selects pid asked =>
      refine separator_notMem_lines (Text.notMem_toList_append.mpr
        ⟨by decide, Text.lineFeed_notMem_toString _⟩) ?_
      rw [Text.head?_toList_append (by decide : "Selected PID ".toList.head? = some 'S')]
      decide
  | lacks command asked needs unselected =>
      have cut : Text.lines "Select the PID first!\n\n".toList =
          ["Select the PID first!".toList, []] := by decide
      rw [cut]
      decide
  | succeeds command later carries ran => exact absurd carries (idle command)
  | fails command cause later carries ran => exact absurd carries (idle command)

/-! ## Exchanges -/

section Exchanges

variable {shell : Shell} {selected : Option UInt32} {line : List Char} {trace : Trace}
  {sink : Sink}

theorem wants_prompt : prompt.Wants [.write ">: ", .flush] (.ok ()) :=
  (Run.wants_request _).bind (Run.wants_request _)

/-- A run writes what is to be written about a line, unless the command of the line meets a
fault. -/
def Writes (shell : Shell) (selected : Option UInt32) (trace : Trace) (line : List Char)
    (sink : Sink) (part : Run IoError Unit) : Prop :=
  (∃ reply later taken, shell.Replies selected trace line reply later ∧ taken.TakesAll ∧
    taken.text = sink.text ++ reply ∧
    part { trace with out := sink } = (.ok (), { later with out := taken })) ∨
  (∃ kind stopped, shell.Panics selected trace line kind ∧
    part { trace with out := sink } = (.error (.fault kind), stopped))

/-- A message is all that is written about its line. -/
theorem writes_line {text reply : String} (takes : sink.TakesAll) (same : text ++ "\n" = reply)
    (replies : shell.Replies selected trace line reply trace) :
    shell.Writes selected trace line sink (Run.writeLine text) := by
  rcases @Run.writeLine_of_takesAll IoError _ trace sink takes text with
    ⟨taken, ran, still, added⟩
  exact Or.inl ⟨reply, trace, taken, replies, still, same ▸ added, ran⟩

/-- What is written about a command that is carried out is what it writes with an output of its
own, the message of its failure if it fails, and the separator. -/
theorem writes_perform {command : ShellCommand} (carries : Carries selected line command)
    (takes : sink.TakesAll) :
    shell.Writes selected trace line sink (shell.perform (selected.getD 0) command) := by
  rcases (shell.recites_dispatch (selected.getD 0) command).of_takesAll trace with
    ⟨outcome, later, added, works⟩
  rcases works Sink.unlimited (fun _ _ _ => rfl) with ⟨alone, free, -, text⟩
  rcases works sink takes with ⟨taken, ran, stays, written⟩
  have body : alone.text = added := text.trans String.empty_append
  have tail : separator ++ "\n" ++ "\n" = separator ++ "\n\n" := String.append_assoc
  unfold perform
  rcases outcome with ⟨cause | kind⟩ | done
  · rcases @Run.writeLine_of_takesAll IoError _ later taken stays cause.message with
      ⟨told, tells, holds, named⟩
    rcases @Run.writeLine_of_takesAll IoError _ later told holds (separator ++ "\n") with
      ⟨closed, closes, still, ended⟩
    refine Or.inl ⟨_, _, closed, .fails command cause _ carries free, still, ?_, ?_⟩
    · rw [ended, named, written, body, tail]
      simp only [String.append_assoc]
    · rw [Run.bind_of_ok (Run.attempt_of_failure ran)]
      dsimp only
      rw [Run.bind_of_ok tells]
      exact closes
  · refine Or.inr ⟨kind, { later with out := taken }, ⟨command, _, carries, free⟩, ?_⟩
    rw [Run.bind_of_error (Run.attempt_of_fault ran)]
  · rcases @Run.writeLine_of_takesAll IoError _ later taken stays (separator ++ "\n") with
      ⟨closed, closes, still, ended⟩
    refine Or.inl ⟨_, _, closed, .succeeds command _ carries free, still, ?_, ?_⟩
    · rw [ended, written, body, tail, String.append_assoc]
    · rw [Run.bind_of_ok (Run.attempt_of_ok ran)]
      exact closes

/-- A command is carried out, or its process is asked for. -/
theorem writes_carry {command : ShellCommand} (asked : ShellCommand.ofLine line = .ok command)
    (carried : isCarriedOut command = true) (takes : sink.TakesAll) :
    shell.Writes selected trace line sink (shell.carry selected command) := by
  unfold carry
  rcases chosen : selected with _ | pid
  · dsimp only
    split
    · rename_i needs
      exact writes_line takes rfl (.lacks command asked needs rfl)
    · rename_i needsNone
      exact writes_perform ⟨asked, carried, fun needs => absurd needs needsNone⟩ takes
  · exact writes_perform ⟨asked, carried, fun _ => Option.some_ne_none pid⟩ takes

/-- A line that does not quit is replied to. -/
theorem writes_reply (stays : quits line = false) (takes : sink.TakesAll) :
    shell.Writes selected trace line sink (shell.reply selected line) := by
  unfold reply
  rcases asked : ShellCommand.ofLine line with cause | command
  · exact writes_line takes String.append_assoc (.refused cause asked)
  · cases command with
    | empty => exact Or.inl ⟨"", trace, sink, .empty asked, takes, String.append_empty.symm, rfl⟩
    | quit =>
        unfold quits at stays
        rw [asked] at stays
        contradiction
    | selectPid pid => exact writes_line takes String.append_assoc (.selects pid asked)
    | _ => exact writes_carry asked rfl takes

end Exchanges

/-! ## Whole sessions -/

/-- A line that a session acts on, with what is written about it. -/
structure Exchange where
  line : List Char
  reply : String

/-- The process that some lines select. -/
def selectionOf (lines : List (List Char)) : Option UInt32 :=
  (lines.filterMap selects?).getLast?

theorem foldl_selectionAfter (lines : List (List Char)) (selected : Option UInt32) :
    lines.foldl selectionAfter selected = (selectionOf lines).or selected := by
  induction lines generalizing selected with
  | nil => rfl
  | cons line rest ih =>
      rw [List.foldl_cons, ih]
      unfold selectionOf selectionAfter
      cases selects : selects? line with
      | none => rw [List.filterMap_cons_none selects, Option.none_or]
      | some pid =>
          rw [List.filterMap_cons_some selects, Option.some_or, List.getLast?_cons]
          cases (rest.filterMap selects?).getLast? <;> rfl

/-- Lines are replied to one after the other, each about the process that is selected by then. -/
inductive Answers (shell : Shell) : Option UInt32 -> Trace -> List Exchange -> Trace -> Prop where
  | nil {selected : Option UInt32} {trace : Trace} : Answers shell selected trace [] trace
  | cons {selected : Option UInt32} {trace middle last : Trace} {exchange : Exchange}
    {rest : List Exchange}
    (replies : shell.Replies selected trace exchange.line exchange.reply middle)
    (goesOn : Answers shell (selectionAfter selected exchange.line) middle rest last) :
    Answers shell selected trace (exchange :: rest) last

variable {shell : Shell} {selected : Option UInt32} {trace : Trace}

/-- Each line is replied to about the process that the lines before it select. -/
theorem Answers.replies {last : Trace} {before after : List Exchange} {exchange : Exchange}
    (answers : shell.Answers selected trace (before ++ exchange :: after) last) :
    ∃ middle later, shell.Replies ((before.map Exchange.line).foldl selectionAfter selected)
      middle exchange.line exchange.reply later := by
  induction before generalizing selected trace with
  | nil =>
      cases answers with
      | cons replies goesOn => exact ⟨_, _, replies⟩
  | cons first rest ih =>
      cases answers with
      | cons replies goesOn => exact ih goesOn

/-- What stands in an output about some exchanges: the prompt of each, and its reply. -/
def transcript (exchanges : List Exchange) : String :=
  String.join (exchanges.map fun exchange => ">: " ++ exchange.reply)

/-- Lines are exchanged up to the last one, or up to one whose command meets a fault. -/
theorem foldr_exchange_of_takesAll {lines : List (List Char)} {sink : Sink}
    (stay : forall line, line ∈ lines -> quits line = false) (takes : sink.TakesAll) :
    (∃ exchanges last taken, exchanges.map Exchange.line = lines ∧
      shell.Answers selected trace exchanges last ∧ taken.TakesAll ∧
      taken.text = sink.text ++ transcript exchanges ∧
      forall rest, lines.foldr shell.exchange rest ⟨selected⟩ { trace with out := sink } =
        rest ⟨lines.foldl selectionAfter selected⟩ { last with out := taken }) ∨
    (∃ exchanges line unheard middle kind, lines = exchanges.map Exchange.line ++ line :: unheard ∧
      shell.Answers selected trace exchanges middle ∧
      shell.Panics ((exchanges.map Exchange.line).foldl selectionAfter selected) middle line kind ∧
      forall rest, (lines.foldr shell.exchange rest ⟨selected⟩ { trace with out := sink }).1.1 =
        .error (.fault kind)) := by
  induction lines generalizing selected trace sink with
  | nil =>
      refine Or.inl ⟨[], trace, sink, rfl, .nil, takes, String.append_empty.symm, fun rest => ?_⟩
      rw [List.foldr_nil, List.foldl_nil]
  | cons line others ih =>
      rw [List.forall_mem_cons] at stay
      rcases wants_prompt.of_takesAll trace takes with ⟨asked, prompts, holds, shown⟩
      have goesOn : forall {outcome later},
          shell.reply selected line { trace with out := asked } = (outcome, later) ->
          forall rest, (line :: others).foldr shell.exchange rest ⟨selected⟩
              { trace with out := sink } =
            match outcome with
            | .ok () => others.foldr shell.exchange rest ⟨selectionAfter selected line⟩ later
            | .error stop => ((.error stop, ⟨selectionAfter selected line⟩), later) := by
        intro outcome later ran rest
        rw [List.foldr_cons, exchange_apply, prompts]
        dsimp only
        unfold replyThen
        dsimp only
        rw [ran]
        rcases outcome with _ | _ <;> rfl
      rcases writes_reply stay.1 holds with
        ⟨reply, later, taken, replies, still, added, ran⟩ | ⟨kind, stopped, panics, ran⟩
      · have text : taken.text = sink.text ++ (">: " ++ reply) := by
          rw [added, shown, String.append_assoc]
          rfl
        rcases @ih (selectionAfter selected line) later taken stay.2 still with
          ⟨exchanges, last, drained, same, answers, ends, told, runs⟩ |
          ⟨exchanges, culprit, unheard, middle, kind, split, answers, panics, stops⟩
        · refine Or.inl ⟨⟨line, reply⟩ :: exchanges, last, drained, ?_, .cons replies answers,
            ends, ?_, fun rest => ?_⟩
          · rw [List.map_cons, same]
          · rw [told, text, String.append_assoc]
            unfold transcript
            rw [List.map_cons, String.join_cons]
          · rw [goesOn ran, runs]
            rfl
        · refine Or.inr ⟨⟨line, reply⟩ :: exchanges, culprit, unheard, middle, kind, ?_,
            .cons replies answers, panics, fun rest => ?_⟩
          · rw [List.map_cons, List.cons_append, <- split]
          · rw [goesOn ran]
            exact stops rest
      · refine Or.inr ⟨[], line, others, trace, kind, rfl, .nil, panics, fun rest => ?_⟩
        rw [goesOn ran]

/-- Where all lines are texts, a session ends by asking for one more. -/
theorem ending_of_decoded {lines : List (List UInt8)} {texts : List (List Char)}
    (decoded : lines.map Text.utf8Decode? = texts.map some) : ending lines = talk prompt := by
  induction lines generalizing texts with
  | nil => rfl
  | cons line rest ih =>
      cases texts with
      | nil => contradiction
      | cons text others =>
          rw [List.map_cons, List.map_cons, List.cons.injEq] at decoded
          unfold ending
          rw [decoded.1]
          dsimp only
          split
          · rfl
          · exact ih decoded.2

/-- The help. -/
def helpText : String :=
  "--------------------------------\n" ++
    (String.join (helpEntries.map fun entry => helpLine entry ++ "\n") ++
      "********************************\n\n")

theorem writeHelp_of_takesAll {sink : Sink} (takes : sink.TakesAll) :
    ∃ taken : Sink, (writeHelp : Run IoError Unit) { trace with out := sink } =
      (.ok (), { trace with out := taken }) ∧ taken.TakesAll ∧
        taken.text = sink.text ++ helpText := by
  have wants : (writeHelp : Run IoError Unit).Wants _ (.ok ()) :=
    (Run.wants_writeLine _).bind
      ((Run.wants_forM fun entry => Run.wants_writeLine (helpLine entry)).bind
        (Run.wants_writeLine _))
  rcases wants.of_takesAll trace takes with ⟨taken, ran, stays, text⟩
  refine ⟨taken, ran, stays, text.trans (congrArg (sink.text ++ ·) ?_)⟩
  unfold helpText
  rfl

/-- The last line of what is written about a line is the separator if a command was carried out,
however it went, and no line of it is the separator if none was. -/
theorem Answers.separated {last : Trace} {exchanges before after : List Exchange}
    {exchange : Exchange} (answers : shell.Answers none trace exchanges last)
    (unbroken : forall line, line ∈ exchanges.map Exchange.line -> '\n' ∉ line)
    (split : exchanges = before ++ exchange :: after) :
    ((∃ command, Carries (selectionOf (before.map Exchange.line)) exchange.line command) ->
      ∃ front, exchange.reply = front ++ "\n" ++ (separator ++ "\n\n")) ∧
    ((¬ ∃ command, Carries (selectionOf (before.map Exchange.line)) exchange.line command) ->
      separator.toList ∉ Text.lines exchange.reply.toList) := by
  rw [split] at answers
  rcases answers.replies with ⟨middle, later, replies⟩
  rw [foldl_selectionAfter, Option.or_none] at replies
  have whole : '\n' ∉ exchange.line := by
    refine unbroken _ (List.mem_map_of_mem ?_)
    rw [split]
    exact List.mem_append_right _ List.mem_cons_self
  refine ⟨fun ⟨command, carries⟩ => replies.ends carries, fun idle => ?_⟩
  exact replies.separator_notMem whole fun command carries => idle ⟨command, carries⟩

/-- A session over an output that takes all goes on until the first line that quits, unless a
command meets a fault.  It comes to an end and is about the process that was selected last,
whatever failed on the way.  What it writes is the help, a prompt and a reply for each line
before the one that quits, and a last prompt.  A reply ends with the separator exactly if a
command was carried out, one that needs no process or one behind the selection of a process. -/
theorem run_converses {script : List UInt8} {text : List Char}
    (decoded : Text.utf8Decode? script = some text) (takes : trace.out.TakesAll) :
    (∃ exchanges line unheard middle kind,
      actedOn (Text.lines text) = exchanges.map Exchange.line ++ line :: unheard ∧
      shell.Answers none trace exchanges middle ∧
      shell.Panics (selectionOf (exchanges.map Exchange.line)) middle line kind ∧
      (shell.run script {} trace).1.1 = .error (.fault kind)) ∨
    (∃ exchanges last drain,
      shell.run script {} trace =
        ((.ok (), ⟨selectionOf (actedOn (Text.lines text))⟩), { last with out := drain }) ∧
      exchanges.map Exchange.line = actedOn (Text.lines text) ∧
      shell.Answers none trace exchanges last ∧
      drain.text = trace.out.text ++ helpText ++ transcript exchanges ++ ">: " ++ "\n" ∧
      forall before exchange after, exchanges = before ++ exchange :: after ->
        ((∃ command, Carries (selectionOf (before.map Exchange.line)) exchange.line command) ->
          ∃ front, exchange.reply = front ++ "\n" ++ (separator ++ "\n\n")) ∧
        ((¬ ∃ command, Carries (selectionOf (before.map Exchange.line)) exchange.line command) ->
          separator.toList ∉ Text.lines exchange.reply.toList)) := by
  have lines := Text.map_decode_byteLines decoded
  have stay : forall line, line ∈ actedOn (Text.lines text) -> quits line = false := by
    intro line member
    have kept := List.mem_takeWhile_imp member
    simpa using kept
  rcases @writeHelp_of_takesAll trace trace.out takes with ⟨helped, helps, holds, help⟩
  have begins : shell.run script {} trace =
      ((actedOn (Text.lines text)).foldr shell.exchange (talk prompt) >>= fun _ =>
        talk (Run.writeLine "")) ⟨none⟩ { trace with out := helped } := by
    unfold run
    rw [talk_bind, helps, converse_eq_foldr, heard_eq_actedOn lines, ending_of_decoded lines]
  rcases @foldr_exchange_of_takesAll shell none trace (actedOn (Text.lines text)) helped stay holds
    with ⟨exchanges, last, taken, same, answers, ends, told, runs⟩ |
      ⟨exchanges, line, unheard, middle, kind, split, answers, panics, stops⟩
  · refine Or.inr ?_
    rcases wants_prompt.of_takesAll last ends with ⟨asked, prompts, still, shown⟩
    rcases @Run.writeLine_of_takesAll IoError _ last asked still "" with
      ⟨drain, closes, -, closed⟩
    refine ⟨exchanges, last, drain, ?_, same, answers, ?_, fun before exchange after split => ?_⟩
    · rw [begins, Talk.bind_apply, runs, foldl_selectionAfter, Option.or_none]
      unfold talk
      rw [prompts]
      dsimp only
      rw [closes]
    · rw [closed, shown, told, help]
      rfl
    · refine answers.separated (fun line member => ?_) split
      rw [same] at member
      exact Text.lineFeed_notMem_of_mem_lines ((List.takeWhile_sublist _).subset member)
  · refine Or.inl ⟨exchanges, line, unheard, middle, kind, split, answers, ?_, ?_⟩
    · rw [foldl_selectionAfter, Option.or_none] at panics
      exact panics
    · rw [begins]
      exact Talk.bind_of_stopped (stops (talk prompt)) _

/-- A shell on a machine without processes. -/
def bareShell : Shell where
  machine := ({} : StagedMachine).machine
  settings :=
    { memoryLimit := 4096
      maxThreads := 2
      blockFactor := 1
      maxResults := 8
      showFailedReads := false }
  hardwareThreads := 2

/-- A session that lacks a process first, selects one, fails to open it, and quits before the
last line. -/
def strandedScript : List Char :=
  "lM\n\np 7\ns abc\nbogus\nh\nq\np 8\n".toList

/-- The session ends about the process that it could not open. -/
theorem run_converses_of_stranded :
    ∃ (exchanges : List Exchange) (last : Trace) (drain : Sink),
      bareShell.run (Text.utf8Bytes strandedScript) {} {} =
        ((.ok (), ⟨some 7⟩), { last with out := drain }) ∧
      exchanges.map Exchange.line =
        ["lM".toList, [], "p 7".toList, "s abc".toList, "bogus".toList, "h".toList] ∧
      drain.text = "" ++ helpText ++ transcript exchanges ++ ">: " ++ "\n" := by
  have decoded : Text.utf8Decode? (Text.utf8Bytes strandedScript) = some strandedScript := by
    decide +kernel
  have acted : actedOn (Text.lines strandedScript) =
      ["lM".toList, [], "p 7".toList, "s abc".toList, "bogus".toList, "h".toList] := by
    decide +kernel
  have selected : selectionOf (actedOn (Text.lines strandedScript)) = some 7 := by
    decide +kernel
  have calm : (bareShell.run (Text.utf8Bytes strandedScript) {} {}).1.1 = .ok () := by
    decide +kernel
  rcases @run_converses bareShell {} (Text.utf8Bytes strandedScript) strandedScript decoded
      (fun _ _ _ => rfl) with
    ⟨_, _, _, _, kind, -, -, -, stopped⟩ | ⟨exchanges, last, drain, ran, same, -, text, -⟩
  · cases calm.symm.trans stopped
  · rw [selected] at ran
    exact ⟨exchanges, last, drain, ran, same.trans acted, text⟩

end Shell
end MemoryProbe
