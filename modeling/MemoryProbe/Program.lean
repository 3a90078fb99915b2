import MemoryProbe.Banner
import MemoryProbe.CommandLine
import MemoryProbe.Shell.Session

namespace MemoryProbe

/-!
The program: read the arguments, settle the settings, show the banner, and carry
out the request.  What it needs of its surroundings is a value, and what it
leaves behind is a value as well.
-/

/-- What the program runs in. -/
structure Surroundings where
  machine : Machine
  hardwareThreads : Word
  /-- The contents of the files of the user. -/
  fileContents : String -> Except IoError (List UInt8)
  /-- The standard input. -/
  input : List UInt8
  /-- What the system tells of its page size. -/
  pageSize : Int := Scanner.usualPageSize

/-- What the program leaves to others: to read its arguments, and to read the text
of a settings file. -/
structure Libraries where
  readArguments : List String ->
    Except CommandLine.ArgumentStop CommandLine.Invocation
  settingsFormat : SettingsFormat

/-- The libraries that are used. -/
def Libraries.standard : Libraries where
  readArguments := CommandLine.read
  settingsFormat := .json

/-- Why the program fails. -/
inductive ProgramError where
  | output (cause : IoError)
  | settings (cause : SettingsError)
  | pattern (cause : CommandLine.PatternError)
  | memory (cause : MemoryError)
  | heap (cause : HeapError)
  | scan (cause : ScanError)
deriving DecidableEq, Repr

instance : OfIoError ProgramError where
  ofIoError := .output

/-- The messages of the failure and of what caused it, outermost first. -/
def ProgramError.chain : ProgramError -> List String
  | .output cause => [cause.message]
  | .settings cause => cause.chain
  | .pattern cause => [cause.message]
  | .memory cause => cause.chain
  | .heap cause => cause.chain
  | .scan cause => cause.chain

namespace Program

open CommandLine

def writeInfo (text : String) : Run ProgramError Unit :=
  Run.writeLine ("[*] " ++ text)

/-- Print a line about a success. -/
def writeSuccess (text : String) : Run ProgramError Unit :=
  Run.writeLine ("[+] " ++ text)

/-- The closing line of a scan. -/
def writeSummary (summary : ScanSummary) : Run ProgramError Unit :=
  let regions := toString summary.regions ++ " regions"
  let blocks := toString summary.blocks ++ " blocks"
  let skipped := toString summary.failedBlocks ++ " skipped"
  match summary.outcome with
  | .listed =>
    writeSuccess
      (toString summary.uniqueMatches ++ " unique matches in " ++ regions ++ " ("
        ++ blocks ++ ", " ++ skipped ++ ", " ++ toString summary.workers
        ++ " workers)")
  | _ => writeInfo (regions ++ ", " ++ blocks ++ ", " ++ skipped)

/-- Scan a process. -/
def scan (surroundings : Surroundings) (settings : Settings) (quiet : Bool)
    (pid : UInt32) (source : PatternSource) : Run ProgramError Unit := do
  let pattern <- Run.ofExcept (source.bytes.mapError .pattern)
  let opened <- LiveProcess.openReadableIn surroundings.machine pid
  let process <- Run.ofExcept (opened.mapError .memory)
  let target := process.target surroundings.machine
  if !quiet then
    writeInfo ("Scanning pid " ++ toString pid.toNat ++ " for "
      ++ toString pattern.length ++ " byte pattern")
    match target.imagePath with
    | some path => writeInfo ("Process name: " ++ path)
    | none => pure ()
  let scanner := Scanner.ofSettings target settings surroundings.hardwareThreads
    surroundings.pageSize
  let summary <- Run.widen .scan (scanner.scan pattern)
  Run.flush
  if !quiet then
    writeSummary summary

/-- Run a session over the standard input. -/
def converse (surroundings : Surroundings) (settings : Settings) :
    Run ProgramError Unit :=
  let shell : Shell :=
    { machine := surroundings.machine
      settings := settings
      hardwareThreads := surroundings.hardwareThreads
      pageSize := surroundings.pageSize }
  Run.widen .output fun trace =>
    let ((answer, _), later) := shell.run surroundings.input {} trace
    (answer, later)

/-- Carry out a request.  Without one there is a session. -/
def perform (surroundings : Surroundings) (settings : Settings) (quiet : Bool)
    (request : Option Request) : Run ProgramError Unit := do
  let machine := surroundings.machine
  match request with
  | some (.scan pid source) => scan surroundings settings quiet pid source
  | some (.heaps pid listsBlocks entropy) =>
    let _ <- Run.widen .heap (walkProcessHeaps machine pid listsBlocks entropy)
    Run.flush
  | some .processes =>
    let count <- Run.widen .memory machine.listProcesses
    if !quiet then
      writeSuccess (toString count ++ " processes")
  | some (.modules pid) =>
    let _ <- Run.widen .memory (machine.listModules pid)
  | some (.threads pid) =>
    let _ <- Run.widen .memory (machine.listThreads pid)
  | some .shell => converse surroundings settings
  | none => converse surroundings settings

def act (format : SettingsFormat) (surroundings : Surroundings)
    (invocation : Invocation) : Run ProgramError Unit := do
  let defaults := Settings.standard surroundings.hardwareThreads
  let chosen := invocation.settingsIn format defaults surroundings.fileContents
  let settings <- Run.ofExcept (chosen.mapError .settings)
  if !invocation.quiet then
    Run.writeLine { Banner.standard with coloured := false }.text
  perform surroundings settings invocation.quiet invocation.request

/-- What the program leaves behind. -/
structure Outcome where
  exitCode : UInt32
  output : String
  errors : String
deriving DecidableEq, Repr

/-- The commands in short. -/
def usage : String :=
  "Usage: " ++ Banner.programName ++ " [OPTIONS] ["
    ++ "|".intercalate (CommandName.all.map CommandName.text) ++ "]\n"

/-- The outcome of arguments that lead to no invocation. -/
def stopOutcome : ArgumentStop -> Outcome
  | .help => ⟨0, usage, ""⟩
  | .version => ⟨0, Banner.programName ++ " " ++ Banner.programVersion ++ "\n", ""⟩
  | _ => ⟨2, "", "error: the arguments cannot be used\n\n" ++ usage⟩

/-- Run the program with some libraries. -/
def runWith (libraries : Libraries) (surroundings : Surroundings)
    (arguments : List String) : Outcome :=
  match libraries.readArguments arguments with
  | .error stop => stopOutcome stop
  | .ok invocation =>
    let (answer, trace) :=
      act libraries.settingsFormat surroundings invocation {}
    let told := trace.diagnostics.text
    match answer with
    | .ok () => ⟨0, trace.out.text, told⟩
    | .error (.failure cause) =>
      ⟨1, trace.out.text, told ++ "[!] " ++ ": ".intercalate cause.chain ++ "\n"⟩
    | .error (.fault _) => ⟨101, trace.out.text, told⟩

/-- Run the program. -/
def run (surroundings : Surroundings) (arguments : List String) : Outcome :=
  runWith .standard surroundings arguments

end Program

end MemoryProbe
