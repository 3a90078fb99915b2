import MemoryProbe.Kernel.LiveHeaps
import MemoryProbe.Listing
import MemoryProbe.Search.Scan
import MemoryProbe.Shell.Command
import MemoryProbe.Text.Lines

namespace MemoryProbe

/-!
Interactive sessions: one line, one command, about one selected process at a
time.  A command that fails says so and the session goes on; only a failure of
the output outside a command, or a line that is no text, ends it early.
-/

/-- Why a command failed. -/
inductive CommandError where
  | output (cause : IoError)
  | opening (cause : MemoryError)
  | memory (cause : MemoryError)
  | heap (cause : HeapError)
  | scan (cause : ScanError)
deriving DecidableEq, Repr

instance : OfIoError CommandError where
  ofIoError := .output

def CommandError.message : CommandError -> String
  | .output cause => cause.message
  | .opening cause => "Failed opening the process. " ++ cause.message
  | .memory cause => cause.message
  | .heap cause => cause.message
  | .scan cause => cause.message

/-- What changes while a session goes on. -/
structure Session where
  /-- The selected process. -/
  pid : Option UInt32 := none
deriving DecidableEq, Repr

/-- What does not change while a session goes on. -/
structure Shell where
  machine : Machine
  settings : Settings
  hardwareThreads : Word
  /-- What the system tells of its page size. -/
  pageSize : Int := Scanner.usualPageSize

namespace Shell

/-- A part of a session.  It writes to a trace, may select a process, and may
end the session. -/
abbrev Talk := ExceptT (Halt IoError) (StateT Session (StateM Trace))

/-- Run something within a session that does not change the selection. -/
def talk {Answer : Type} (part : Run IoError Answer) : Talk Answer :=
  fun session trace =>
    let (answer, later) := part trace
    ((answer, session), later)

/-- The selected process. -/
def selected : Talk (Option UInt32) :=
  fun session trace => ((.ok session.pid, session), trace)

/-- Select a process. -/
def select (pid : UInt32) : Talk Unit :=
  fun _ trace => ((.ok (), { pid := some pid }), trace)

/-- The line that ends the output of a command. -/
def separator : String :=
  "===================================="

/-- The commands with what they do. -/
def helpEntries : List (String × String) :=
  [("s <text>", "search committed memory for a text pattern"),
    ("x <hex bytes>",
      "search committed memory for a binary pattern, e.g. x de ad be ef"),
    ("p <pid>", "select PID (decimal, or hex with 0x)"),
    ("lp", "list system PIDs"),
    ("lM", "list modules of the selected process"),
    ("lt", "list threads of the selected process"),
    ("th", "traverse process heaps (slow)"),
    ("the", "traverse process heaps, calculate entropy (slower)"),
    ("thb", "traverse process heaps, list heap blocks (extra slow)"),
    ("h", "show this help"),
    ("q", "quit")]

/-- The width of the column of commands. -/
def helpColumn : Nat := 16

def helpLine (entry : String × String) : String :=
  let filled := List.replicate (helpColumn - entry.1.length) ' '
  entry.1 ++ String.ofList filled ++ "- " ++ entry.2

/-- Print the help. -/
def writeHelp {Cause : Type} [OfIoError Cause] : Run Cause Unit := do
  Run.writeLine "--------------------------------"
  helpEntries.forM fun entry => Run.writeLine (helpLine entry)
  Run.writeLine "********************************\n"

/-- Open a process, name its executable, and scan it. -/
def scan (shell : Shell) (pid : UInt32) (pattern : List UInt8) :
    Run CommandError Unit := do
  let opened <- LiveProcess.openReadableIn shell.machine pid
  let process <- Run.ofExcept (opened.mapError .opening)
  let target := process.target shell.machine
  match target.imagePath with
  | some path => Run.writeLine ("Process name: " ++ path ++ "\n")
  | none => pure ()
  let scanner := Scanner.ofSettings target shell.settings shell.hardwareThreads
    shell.pageSize
  let _ <- Run.widen .scan (scanner.scan pattern)

/-- Carry out a command about a process. -/
def dispatch (shell : Shell) (pid : UInt32) (command : ShellCommand) :
    Run CommandError Unit :=
  match command with
  | .help => writeHelp
  | .listProcesses => do
    let _ <- Run.widen .memory shell.machine.listProcesses
  | .listModules => do
    let _ <- Run.widen .memory (shell.machine.listModules pid)
  | .listThreads => do
    let _ <- Run.widen .memory (shell.machine.listThreads pid)
  | .heaps listsBlocks entropy => do
    let _ <- Run.widen .heap (walkProcessHeaps shell.machine pid listsBlocks entropy)
  | .scan pattern => shell.scan pid pattern
  | .empty => pure ()
  | .quit => pure ()
  | .selectPid _ => pure ()

/-- Carry out a command, print its failure, and end its output. -/
def perform (shell : Shell) (pid : UInt32) (command : ShellCommand) :
    Run IoError Unit := do
  match <- Run.attempt (shell.dispatch pid command) with
  | .ok () => pure ()
  | .error cause => Run.writeLine cause.message
  Run.writeLine (separator ++ "\n")

/-- Act on a command. -/
def execute (shell : Shell) (command : ShellCommand) : Talk Unit := do
  match command with
  | .empty => pure ()
  | .selectPid pid =>
    select pid
    talk (Run.writeLine ("Selected PID " ++ toString pid.toNat ++ "\n"))
  | command =>
    match <- selected with
    | some pid => talk (shell.perform pid command)
    | none =>
      if command.needsPid then
        talk (Run.writeLine "Select the PID first!\n")
      else
        talk (shell.perform 0 command)

/-- Ask for a line. -/
def prompt : Run IoError Unit := do
  Run.write ">: "
  Run.flush

/-- Act on lines up to the one that quits. -/
def converse (shell : Shell) : List (List UInt8) -> Talk Unit
  | [] => talk prompt
  | line :: rest => do
    talk prompt
    match Text.utf8Decode? line with
    | none => throw (.failure .invalidText)
    | some text =>
      match ShellCommand.ofLine text with
      | .ok .quit => pure ()
      | .ok command =>
        shell.execute command
        converse shell rest
      | .error cause =>
        talk (Run.writeLine (cause.message ++ "\n"))
        converse shell rest

/-- A whole session over some input. -/
def run (shell : Shell) (input : List UInt8) : Talk Unit := do
  talk writeHelp
  shell.converse (Text.byteLines input)
  talk (Run.writeLine "")

end Shell

end MemoryProbe
