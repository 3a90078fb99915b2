import MemoryProbe.ProcessId
import MemoryProbe.Search.Pattern

namespace MemoryProbe

/-!
Lines of an interactive session.  The first word of a line names the command.
One white-space character ends the word; for text patterns all that follows it
is part of the pattern, while the other commands read past further blanks.
-/

/-- What a line asks for. -/
inductive ShellCommand where
  | empty
  | help
  | quit
  | selectPid (pid : UInt32)
  | listProcesses
  | listModules
  | listThreads
  | heaps (listsBlocks entropy : Bool)
  | scan (pattern : List UInt8)
deriving DecidableEq, Repr

/-- Why a line asks for nothing. -/
inductive LineError where
  | missingPid
  | invalidPid (text : String)
  | missingPattern
  | invalidHex (text : String) (cause : HexError)
  | unknownCommand
deriving DecidableEq, Repr

def LineError.message : LineError -> String
  | .missingPid => "PID missing."
  | .invalidPid text => "Invalid PID: " ++ text
  | .missingPattern => "Pattern missing."
  | .invalidHex text cause => cause.message text
  | .unknownCommand => "Unknown command. Type 'h' for help."

namespace ShellCommand

def endsLine (character : Char) : Bool :=
  character == '\r' || character == '\n'

def dropLineEnds (line : List Char) : List Char :=
  (line.reverse.dropWhile endsLine).reverse

/-- The first word of a line, and what follows the white-space character behind
it. -/
def splitWord (line : List Char) : List Char × List Char :=
  let started := Text.trimStart line
  (Text.splitOnce? Text.isBlank started).getD (started, [])

/-- The command that selects a process. -/
def ofPid (rest : List Char) : Except LineError ShellCommand :=
  let argument := Text.trim rest
  if argument.isEmpty then
    .error .missingPid
  else
    match ProcessId.ofText? argument with
    | some pid => .ok (.selectPid pid)
    | none => .error (.invalidPid (String.ofList argument))

def ofPatternText (rest : List Char) : Except LineError ShellCommand :=
  if rest.isEmpty then
    .error .missingPattern
  else
    .ok (.scan (Text.utf8Bytes rest))

/-- The command that searches for bytes. -/
def ofPatternHex (rest : List Char) : Except LineError ShellCommand :=
  match Pattern.ofHex rest with
  | .ok bytes => .ok (.scan bytes)
  | .error cause => .error (.invalidHex (String.ofList rest) cause)

/-- Read a line. -/
def ofLine (line : List Char) : Except LineError ShellCommand :=
  let (word, rest) := splitWord (dropLineEnds line)
  match String.ofList word with
  | "" => .ok .empty
  | "h" => .ok .help
  | "help" => .ok .help
  | "q" => .ok .quit
  | "quit" => .ok .quit
  | "p" => ofPid rest
  | "lp" => .ok .listProcesses
  | "lM" => .ok .listModules
  | "lt" => .ok .listThreads
  | "th" => .ok (.heaps false false)
  | "the" => .ok (.heaps false true)
  | "thb" => .ok (.heaps true false)
  | "s" => ofPatternText rest
  | "x" => ofPatternHex rest
  | _ => .error .unknownCommand

/-- Whether a command is about the selected process. -/
def needsPid : ShellCommand -> Bool
  | .empty => false
  | .help => false
  | .quit => false
  | .selectPid _ => false
  | .listProcesses => false
  | .listModules => true
  | .listThreads => true
  | .heaps _ _ => true
  | .scan _ => true

end ShellCommand

end MemoryProbe
