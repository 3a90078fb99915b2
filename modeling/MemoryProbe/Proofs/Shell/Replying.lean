import MemoryProbe.Proofs.Writing
import MemoryProbe.Shell.Session

namespace MemoryProbe
namespace Shell

/-!
A session line by line.  What a session writes about a line is a run of its own that depends
on the selected process, and what a line does to the selection depends on the line alone, so
a whole session is a row of replies.
-/

/-! ## Lines -/

/-- Whether a line quits. -/
def quits (line : List Char) : Bool :=
  match ShellCommand.ofLine line with
  | .ok .quit => true
  | _ => false

theorem ofLine_of_quits {line : List Char} (quit : quits line = true) :
    ShellCommand.ofLine line = .ok .quit := by
  unfold quits at quit
  split at quit
  · assumption
  · contradiction

/-- The process that a line selects. -/
def selects? (line : List Char) : Option UInt32 :=
  match ShellCommand.ofLine line with
  | .ok (.selectPid pid) => some pid
  | _ => none

theorem ofLine_of_selects? {line : List Char} {pid : UInt32} (selects : selects? line = some pid) :
    ShellCommand.ofLine line = .ok (.selectPid pid) := by
  unfold selects? at selects
  split at selects
  · rename_i asked
    rw [asked, Option.some.inj selects]
  · contradiction

/-- The selection behind a line. -/
def selectionAfter (selected : Option UInt32) (line : List Char) : Option UInt32 :=
  (selects? line).or selected

/-- The lines that a session acts on: those before the first one that quits. -/
def actedOn (lines : List (List Char)) : List (List Char) :=
  lines.takeWhile fun line => !quits line

/-- The lines of some bytes that a session acts on.  A line that is no text ends the session
as well. -/
def heard (lines : List (List UInt8)) : List (List Char) :=
  match lines with
  | [] => []
  | line :: rest =>
    match Text.utf8Decode? line with
    | none => []
    | some text => if quits text then [] else text :: heard rest

/-- What a session does behind the lines that it acts on: it asks for one more line, and fails
if that is no text. -/
def ending (lines : List (List UInt8)) : Talk Unit :=
  match lines with
  | [] => talk prompt
  | line :: rest =>
    match Text.utf8Decode? line with
    | none => talk prompt >>= fun _ => throw (.failure .invalidText)
    | some text => if quits text then talk prompt else ending rest

/-- Where all lines are texts, those that quit are all that ends a session. -/
theorem heard_eq_actedOn {lines : List (List UInt8)} {texts : List (List Char)}
    (decoded : lines.map Text.utf8Decode? = texts.map some) : heard lines = actedOn texts := by
  induction lines generalizing texts with
  | nil =>
      rw [List.map_eq_nil_iff.mp decoded.symm]
      rfl
  | cons line rest ih =>
      cases texts with
      | nil => contradiction
      | cons text others =>
          rw [List.map_cons, List.map_cons, List.cons.injEq] at decoded
          unfold heard actedOn
          rw [decoded.1, List.takeWhile_cons]
          dsimp only
          cases quits text with
          | true => rfl
          | false => exact congrArg (fun heard => text :: heard) (ih decoded.2)

/-! ## Replies -/

/-- What a session writes about a command, apart from the one that selects: what it comes to,
or that it lacks a process. -/
def carry (shell : Shell) (selected : Option UInt32) (command : ShellCommand) :
    Run IoError Unit :=
  match selected with
  | some pid => shell.perform pid command
  | none =>
    if command.needsPid then
      Run.writeLine "Select the PID first!\n"
    else
      shell.perform 0 command

/-- What a session writes about a line that does not quit. -/
def reply (shell : Shell) (selected : Option UInt32) (line : List Char) : Run IoError Unit :=
  match ShellCommand.ofLine line with
  | .error cause => Run.writeLine (cause.message ++ "\n")
  | .ok .empty => pure ()
  | .ok (.selectPid pid) => Run.writeLine ("Selected PID " ++ toString pid.toNat ++ "\n")
  | .ok command => shell.carry selected command

/-- Parts of a session one after the other. -/
theorem Talk.bind_apply {Answer Later : Type} (part : Talk Answer) (rest : Answer -> Talk Later)
    (session : Session) (trace : Trace) :
    (part >>= rest) session trace =
      match part session trace with
      | ((.ok answer, after), later) => rest answer after later
      | ((.error stop, after), later) => ((.error stop, after), later) := by
  change (match part session trace with
    | ((answer, after), later) => ExceptT.bindCont rest answer after later) = _
  rcases part session trace with ⟨⟨_ | _, _⟩, _⟩ <;> rfl

/-- A part that stops is the last one. -/
theorem Talk.bind_of_stopped {Answer Later : Type} {part : Talk Answer} {session : Session}
    {trace : Trace} {stop : Halt IoError} (stopped : (part session trace).1.1 = .error stop)
    (rest : Answer -> Talk Later) : ((part >>= rest) session trace).1.1 = .error stop := by
  rw [Talk.bind_apply]
  rcases came : part session trace with ⟨⟨_ | _, _⟩, _⟩ <;> rw [came] at stopped <;>
    cases stopped
  rfl

/-- A reply, and then the rest of the session. -/
def replyThen (shell : Shell) (line : List Char) (rest : Talk Unit) : Talk Unit :=
  fun session trace =>
    let after : Session := { pid := selectionAfter session.pid line }
    match shell.reply session.pid line trace with
    | (.ok (), later) => rest after later
    | (.error stop, later) => ((.error stop, after), later)

variable {shell : Shell} {line : List UInt8} {text : List Char}

theorem talk_bind {rest : Talk Unit} {part : Run IoError Unit} {session : Session}
    {trace : Trace} : (talk part >>= fun _ => rest) session trace =
      match part trace with
      | (.ok (), later) => rest session later
      | (.error stop, later) => ((.error stop, session), later) := by
  rw [Talk.bind_apply]
  unfold talk
  rcases part trace with ⟨_ | _, _⟩ <;> rfl

theorem talk_bind_pure (part : Run IoError Unit) :
    (talk part >>= fun _ => pure ()) = talk part := by
  funext session trace
  rw [talk_bind]
  unfold talk
  rcases part trace with ⟨_ | _, _⟩ <;> rfl

/-- Acting on the command of a line is replying to the line. -/
theorem execute_bind {command : ShellCommand} (asked : ShellCommand.ofLine text = .ok command)
    (rest : Talk Unit) :
    (shell.execute command >>= fun _ => rest) = shell.replyThen text rest := by
  funext session trace
  have acts : shell.execute command session trace =
      (((shell.reply session.pid text trace).1, ⟨selectionAfter session.pid text⟩),
        (shell.reply session.pid text trace).2) := by
    rcases session with ⟨selected⟩
    unfold execute reply selectionAfter selects?
    rw [asked]
    cases command with
    | empty => rfl
    | selectPid pid => rfl
    | _ => cases selected <;> rfl
  rw [Talk.bind_apply, acts]
  unfold replyThen
  rcases shell.reply session.pid text trace with ⟨_ | _, _⟩ <;> rfl

/-- Ask for a line, reply to it, and go on. -/
def exchange (shell : Shell) (line : List Char) (rest : Talk Unit) : Talk Unit :=
  talk prompt >>= fun _ => shell.replyThen line rest

theorem exchange_apply (line : List Char) (rest : Talk Unit) (session : Session)
    (trace : Trace) :
    shell.exchange line rest session trace =
      match prompt trace with
      | (.ok (), later) => shell.replyThen line rest session later
      | (.error stop, later) => ((.error stop, session), later) :=
  talk_bind

/-- A line that a session acts on is replied to. -/
theorem converse_heard (decoded : Text.utf8Decode? line = some text)
    (stays : quits text = false) (rest : List (List UInt8)) :
    shell.converse (line :: rest) = shell.exchange text (shell.converse rest) := by
  rw [converse]
  refine congrArg (talk prompt >>= ·) (funext fun _ => ?_)
  rw [decoded]
  dsimp only
  unfold quits at stays
  rcases asked : ShellCommand.ofLine text with cause | command
  · funext session trace
    dsimp only
    rw [talk_bind]
    unfold replyThen reply selectionAfter selects?
    rw [asked]
    rfl
  · rw [asked] at stays
    cases command with
    | quit => contradiction
    | _ => exact execute_bind asked _

/-- A session is one exchange after the other, and then its ending. -/
theorem converse_eq_foldr (lines : List (List UInt8)) :
    shell.converse lines = (heard lines).foldr shell.exchange (ending lines) := by
  induction lines with
  | nil => rfl
  | cons line rest ih =>
      unfold heard ending
      cases decoded : Text.utf8Decode? line with
      | none =>
          rw [converse, decoded]
          rfl
      | some text =>
          dsimp only
          cases stays : quits text with
          | false =>
              rw [converse_heard decoded stays, ih]
              rfl
          | true =>
              rw [converse, decoded, if_pos rfl, if_pos rfl]
              dsimp only
              rw [ofLine_of_quits stays]
              exact talk_bind_pure prompt

end Shell
end MemoryProbe
