import MemoryProbe.Machine.Staged
import MemoryProbe.Program

namespace MemoryProbe
namespace Launch

/-!
The command line.  Everything that the program may look at is gathered before it
runs: the standard input, the settings file, and the files of the processes in
question.  Directories cannot be listed and the memory of other processes cannot
be read from here, so processes and tasks are found by trying their numbers, and
every read of memory is refused.
-/

/-- The code of a system call that the system does not have. -/
def refusedCall : Int := 38

/-- The system's code behind a number that may stand for its negative. -/
def positiveCode (code : UInt32) : Int :=
  code.toInt32.toInt.natAbs

/-- The system's code of a failure. -/
def codeOf : IO.Error -> Int
  | .noFileOrDirectory _ code _ => positiveCode code
  | .permissionDenied _ code _ => positiveCode code
  | .inappropriateType _ code _ => positiveCode code
  | .resourceExhausted _ code _ => positiveCode code
  | .noSuchThing _ code _ => positiveCode code
  | .otherError code _ => positiveCode code
  | _ => 5

/-- The contents of a file, or the code of the failure. -/
def contentsOf (path : String) : IO (Except Int (List UInt8)) := do
  try
    return .ok (<- IO.FS.readBinFile path).toList
  catch cause =>
    return .error (codeOf cause)

/-- Add a file to a staged machine, or the failure of reading it. -/
def stageFile (staged : StagedMachine) (path : String) : IO StagedMachine := do
  match <- contentsOf path with
  | .ok contents => return { staged with files := (path, contents) :: staged.files }
  | .error code => return { staged with errors := (path, code) :: staged.errors }

def stageLink (staged : StagedMachine) (path : String) : IO StagedMachine := do
  try
    let destination <- IO.FS.realPath path
    return { staged with links := (path, toString destination) :: staged.links }
  catch _ =>
    return staged

/-- The number of the newest process, which ends the line on the load. -/
def newestPid : IO Nat := do
  match <- contentsOf "/proc/loadavg" with
  | .error _ => return 0
  | .ok contents =>
    let text := (Text.utf8Decode? contents).getD []
    let last := (Text.words text).getLast?.getD []
    return (Text.digitsValue? 10 last).getD 0

/-- Add the status lines below a directory to a staged machine, together with
further files of the same tasks. -/
def stageTasks (staged : StagedMachine) (directory : String)
    (further : List String) : IO StagedMachine := do
  let mut later := staged
  for number in [1:(<- newestPid) + 1] do
    let task := directory ++ "/" ++ toString number
    match <- contentsOf (task ++ "/stat") with
    | .error _ => pure ()
    | .ok contents =>
      later := { later with files := (task ++ "/stat", contents) :: later.files }
      for name in further do
        later <- stageFile later (task ++ "/" ++ name)
  return later

def stageProcess (staged : StagedMachine) (pid : UInt32) : IO StagedMachine := do
  let mapped <- stageFile staged (Machine.mapsPath pid)
  let linked <- stageLink mapped (Machine.executablePath pid)
  let directory := Machine.taskDirectory pid
  let tasks <- stageTasks linked directory ["syscall"]
  return { tasks with memory := (pid.toNat, .refused refusedCall) :: tasks.memory }

/-- The commands among the lines of some input. -/
def commandsOf (input : List UInt8) : List ShellCommand :=
  (Text.byteLines input).filterMap fun line =>
    (Text.utf8Decode? line).bind fun text => (ShellCommand.ofLine text).toOption

/-- The processes that an invocation is about. -/
def pidsOf (request : Option CommandLine.Request) (commands : List ShellCommand) :
    List UInt32 :=
  match request with
  | some (.scan pid _) => [pid]
  | some (.heaps pid _ _) => [pid]
  | some (.modules pid) => [pid]
  | some (.threads pid) => [pid]
  | _ =>
    commands.filterMap fun command =>
      match command with
      | .selectPid pid => some pid
      | _ => none

/-- Whether an invocation lists all processes. -/
def listsProcesses (request : Option CommandLine.Request)
    (commands : List ShellCommand) : Bool :=
  request == some .processes || commands.contains .listProcesses

/-- Read a stream to its end, behind what was read before. -/
partial def readAll (stream : IO.FS.Stream) (taken : ByteArray) : IO ByteArray := do
  let chunk <- stream.read 65536
  if chunk.isEmpty then
    return taken
  else
    readAll stream (taken ++ chunk)

/-- The standard input if an invocation reads it. -/
def inputOf (request : Option CommandLine.Request) : IO (List UInt8) := do
  match request with
  | none => return (<- readAll (<- IO.getStdin) ByteArray.empty).toList
  | some .shell => return (<- readAll (<- IO.getStdin) ByteArray.empty).toList
  | some _ => return []

/-- The number of hardware threads, of which the system lists each. -/
def hardwareThreads : IO Word := do
  match <- contentsOf "/proc/cpuinfo" with
  | .error _ => return 1
  | .ok contents =>
    let text := (Text.utf8Decode? contents).getD []
    let listed := (Text.lines text).filter fun line =>
      "processor".toList.isPrefixOf line
    return max 1 (UInt64.ofNat listed.length)

/-- The word that names the page size among the auxiliary values of a program. -/
def pageSizeKey : Nat := 6

/-- The page size, which a system tells a program among its auxiliary values: pairs of
words, of which the first names the second. -/
def pageSize : IO Int := do
  match <- contentsOf "/proc/self/auxv" with
  | .error _ => return 0
  | .ok contents =>
    let pairs := (List.range (contents.length / 16)).map fun index =>
      (Chunk.littleEndian ((contents.drop (16 * index)).take 8),
        Chunk.littleEndian ((contents.drop (16 * index + 8)).take 8))
    return (pairs.lookup pageSizeKey).getD 0

/-- Gather what an invocation may look at. -/
def gather (invocation : CommandLine.Invocation) : IO Surroundings := do
  let input <- inputOf invocation.request
  let commands := commandsOf input
  let mut staged : StagedMachine := {}
  for pid in (pidsOf invocation.request commands).eraseDups do
    staged <- stageProcess staged pid
  if listsProcesses invocation.request commands then
    staged <- stageTasks staged "/proc" []
  let settings <-
    match invocation.config with
    | some path => contentsOf path
    | none => pure (.error StagedMachine.noSuchFile)
  return {
    machine := staged.machine
    hardwareThreads := <- hardwareThreads
    fileContents := fun _ => settings.mapError .os
    input := input
    pageSize := <- pageSize }

/-- Run the program on the arguments and the system. -/
def run (arguments : List String) : IO UInt32 := do
  let outcome <-
    match CommandLine.read arguments with
    | .error stop => pure (Program.stopOutcome stop)
    | .ok invocation => do
      let surroundings <- gather invocation
      pure (Program.run surroundings arguments)
  IO.print outcome.output
  IO.eprint outcome.errors
  return outcome.exitCode

end Launch
end MemoryProbe

/-- The program. -/
def main (arguments : List String) : IO UInt32 :=
  MemoryProbe.Launch.run arguments
