import MemoryProbe.Machine.Staged
import MemoryProbe.Proofs.Kernel.Viewing
import MemoryProbe.Proofs.Shell.Replying

namespace MemoryProbe
namespace Shell

/-!
Isolation of processes.  The commands about a process look at that process alone, so two
machines that agree on the processes a session selects are the same to the session.  Only the
listing of all processes looks further.
-/

/-- The same shell on another machine. -/
def on (shell : Shell) (other : Machine) : Shell :=
  { shell with machine := other }

variable {shell : Shell} {other : Machine} {pid : UInt32}

theorem scan_eq_on (agrees : shell.machine.AgreesOn other pid) (pattern : List UInt8) :
    shell.scan pid pattern = (shell.on other).scan pid pattern := by
  unfold scan on
  dsimp only
  rw [agrees.openReadableIn_eq]
  funext trace
  have tried : (LiveProcess.openReadableIn other pid : Run CommandError _) trace =
    (.ok (LiveProcess.openReadable other pid trace.reads), _) := rfl
  rw [Run.bind_of_ok tried, Run.bind_of_ok tried]
  refine congrFun (Run.bind_ofExcept_congr fun process opened => ?_) _
  rw [agrees.target_eq (LiveProcess.pid_of_openReadable opened)]

/-- A command other than the listing of all processes looks at its process alone, and at
nothing if it needs none. -/
theorem dispatch_eq_on {command : ShellCommand} (unlisted : command ≠ .listProcesses)
    (agrees : command.needsPid = true -> shell.machine.AgreesOn other pid) :
    shell.dispatch pid command = (shell.on other).dispatch pid command := by
  cases command with
  | listProcesses => exact absurd rfl unlisted
  | listModules =>
      have same := (agrees rfl).modules_eq
      unfold dispatch Machine.listModules on
      dsimp only
      rw [same]
  | listThreads =>
      have same := (agrees rfl).threads_eq
      unfold dispatch Machine.listThreads on
      dsimp only
      rw [same]
  | heaps listsBlocks entropy =>
      have same := (agrees rfl).walkProcessHeaps_eq listsBlocks entropy
      unfold dispatch on
      dsimp only
      rw [same]
  | scan pattern => exact scan_eq_on (agrees rfl) pattern
  | _ => rfl

theorem carry_eq_on {selected : Option UInt32} {command : ShellCommand}
    (unlisted : command ≠ .listProcesses)
    (agrees : forall pid, selected = some pid -> shell.machine.AgreesOn other pid) :
    shell.carry selected command = (shell.on other).carry selected command := by
  unfold carry perform
  cases selected with
  | some pid =>
      dsimp only
      rw [dispatch_eq_on unlisted fun _ => agrees pid rfl]
  | none =>
      dsimp only
      split
      · rfl
      · rename_i needsNone
        rw [dispatch_eq_on unlisted fun needs => absurd needs needsNone]

theorem reply_eq_on {selected : Option UInt32} {line : List Char}
    (unlisted : ShellCommand.ofLine line ≠ .ok .listProcesses)
    (agrees : forall pid, selected = some pid -> shell.machine.AgreesOn other pid) :
    shell.reply selected line = (shell.on other).reply selected line := by
  unfold reply
  rcases asked : ShellCommand.ofLine line with cause | command
  · rfl
  · rw [asked] at unlisted
    have carries := carry_eq_on (fun same => unlisted (congrArg Except.ok same)) agrees
    cases command with
    | empty => rfl
    | selectPid pid => rfl
    | _ => exact carries

/-- Exchanges are the same as long as the machines agree on what is selected. -/
theorem foldr_exchange_eq_on {lines : List (List Char)} {last : Talk Unit} {session : Session}
    (unlisted : forall line, line ∈ lines -> ShellCommand.ofLine line ≠ .ok .listProcesses)
    (agrees : forall line, line ∈ lines -> forall pid, selects? line = some pid ->
      shell.machine.AgreesOn other pid)
    (begins : forall pid, session.pid = some pid -> shell.machine.AgreesOn other pid)
    (trace : Trace) :
    lines.foldr shell.exchange last session trace =
      lines.foldr (shell.on other).exchange last session trace := by
  induction lines generalizing session trace with
  | nil => rw [List.foldr_nil, List.foldr_nil]
  | cons line rest ih =>
      rw [List.forall_mem_cons] at unlisted agrees
      have goesOn : forall pid, selectionAfter session.pid line = some pid ->
          shell.machine.AgreesOn other pid := by
        intro pid selected
        unfold selectionAfter at selected
        rcases Option.or_eq_some_iff.mp selected with now | ⟨-, before⟩
        · exact agrees.1 pid now
        · exact begins pid before
      rw [List.foldr_cons, List.foldr_cons, exchange_apply, exchange_apply]
      rcases prompt trace with ⟨_ | _, middle⟩
      · rfl
      · unfold replyThen
        dsimp only
        rw [reply_eq_on unlisted.1 begins]
        rcases (shell.on other).reply session.pid line middle with ⟨_ | _, later⟩
        · rfl
        · exact ih unlisted.2 agrees.2 goesOn later

/-- A session depends on the machine through the processes that it selects, unless it lists
all processes.  Two machines that agree on each of these processes, on its directory and on
its memory, make the same of the input, in what is written as in everything else; where none
is selected, any two machines do. -/
theorem run_isolated {shell : Shell} {input : List UInt8}
    (unlisted : forall line, line ∈ heard (Text.byteLines input) ->
      ShellCommand.ofLine line ≠ .ok .listProcesses) :
    (forall (other : Machine) (trace : Trace),
      (forall line, line ∈ heard (Text.byteLines input) -> forall pid,
        ShellCommand.ofLine line = .ok (.selectPid pid) -> shell.machine.AgreesOn other pid) ->
      (shell.on other).run input {} trace = shell.run input {} trace) ∧
    ((forall line, line ∈ heard (Text.byteLines input) -> forall pid,
        ShellCommand.ofLine line ≠ .ok (.selectPid pid)) ->
      forall (other : Machine) (trace : Trace),
        (shell.on other).run input {} trace = shell.run input {} trace) := by
  have same : forall (other : Machine) (trace : Trace),
      (forall line, line ∈ heard (Text.byteLines input) -> forall pid,
        ShellCommand.ofLine line = .ok (.selectPid pid) -> shell.machine.AgreesOn other pid) ->
      (shell.on other).run input {} trace = shell.run input {} trace := by
    intro other trace agrees
    have selected : forall line, line ∈ heard (Text.byteLines input) -> forall pid,
        selects? line = some pid -> shell.machine.AgreesOn other pid :=
      fun line member pid selects => agrees line member pid (ofLine_of_selects? selects)
    have unselected : forall pid, ({} : Session).pid = some pid ->
        shell.machine.AgreesOn other pid := by
      intro pid begun
      contradiction
    unfold run
    rw [talk_bind, talk_bind]
    rcases (writeHelp : Run IoError Unit) trace with ⟨_ | _, later⟩
    · rfl
    · dsimp only
      rw [Talk.bind_apply, Talk.bind_apply, converse_eq_foldr, converse_eq_foldr,
        foldr_exchange_eq_on unlisted selected unselected]
  refine ⟨same, fun none other trace => same other trace fun line member pid selects => ?_⟩
  exact absurd selects (none line member pid)

/-- A machine with two processes, each with one readable page. -/
def twinMachine : StagedMachine :=
  let listing := "1000-1004 r--p 00000000 00:00 0"
  let bytes := listing.toList.map fun character => UInt8.ofNat character.toNat
  { files := [("/proc/7/maps", bytes), ("/proc/8/maps", bytes)]
    memory := [(7, .segments [⟨4096, #[7, 7, 7, 7]⟩]), (8, .segments [⟨4096, #[8, 8, 8, 8]⟩])] }

/-- A session that selects the first process, looks at its images, its threads and its heaps,
and searches it. -/
def soloScript : List UInt8 :=
  Text.utf8Bytes "p 7\nlM\nlt\nthe\nx 07 07\nq\nlp\n".toList

/-- A shell on that machine. -/
def twinShell : Shell where
  machine := twinMachine.machine
  settings :=
    { memoryLimit := 4096
      maxThreads := 2
      blockFactor := 1
      maxResults := 8
      showFailedReads := true }
  hardwareThreads := 2

/-- The session is the same where the second process does not exist. -/
theorem run_isolated_of_solo :
    (twinShell.on (twinMachine.machine.only 7)).run soloScript {} {} =
      twinShell.run soloScript {} {} := by
  have hears : heard (Text.byteLines soloScript) =
      ["p 7".toList, "lM".toList, "lt".toList, "the".toList, "x 07 07".toList] := by
    decide +kernel
  have unlisted : forall line, line ∈ heard (Text.byteLines soloScript) ->
      ShellCommand.ofLine line ≠ .ok .listProcesses := by
    rw [hears]
    decide +kernel
  have selected : forall line, line ∈ heard (Text.byteLines soloScript) ->
      selects? line = none ∨ selects? line = some 7 := by
    rw [hears]
    decide +kernel
  refine (@run_isolated twinShell soloScript unlisted).1 (twinMachine.machine.only 7) {}
    fun line member pid selects => ?_
  have same : selects? line = some pid := by
    unfold selects?
    rw [selects]
  rcases selected line member with none | seven
  · cases none.symm.trans same
  · rw [<- Option.some.inj (seven.symm.trans same)]
    exact twinMachine.machine.agreesOn_only 7

end Shell
end MemoryProbe
