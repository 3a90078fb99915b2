import MemoryProbe.Failure

namespace MemoryProbe

/-!
Settings of a scan: how much may be held in read buffers at a time, how many
workers read, how long the blocks are, how many matches are listed, and whether
failed reads are told.  Settings are accepted only if the first three are
positive.
-/

/-- The settings of a scan. -/
structure Settings where
  /-- The greatest number of bytes held in read buffers at a time. -/
  memoryLimit : Word
  maxThreads : Word
  /-- Blocks are this many times the allocation granularity long. -/
  blockFactor : Word
  /-- A scan with more matches than this lists none of them. -/
  maxResults : Word
  showFailedReads : Bool
deriving DecidableEq, Repr

inductive PositiveSetting where
  | maxThreads
  | blockFactor
  | memoryLimit
deriving DecidableEq, Repr

def PositiveSetting.name : PositiveSetting -> String
  | .maxThreads => "max_threads"
  | .blockFactor => "block_factor"
  | .memoryLimit => "memory_limit"

/-- Why settings cannot be used. -/
inductive SettingsError where
  | io (cause : IoError)
  /-- The file does not hold settings. -/
  | malformed (detail : String)
  | notPositive (setting : PositiveSetting)
deriving DecidableEq, Repr

instance : OfIoError SettingsError where
  ofIoError := .io

namespace SettingsError

def message : SettingsError -> String
  | .io cause => "IO error: " ++ cause.message
  | .malformed detail => "Invalid config file: " ++ detail
  | .notPositive setting =>
    "Invalid setting: " ++ setting.name ++ " must be greater than 0"

/-- The messages of the failure and of what caused it, outermost first. -/
def chain : SettingsError -> List String
  | .io cause => [message (.io cause), cause.message]
  | .malformed detail => [message (.malformed detail), detail]
  | other => [other.message]

end SettingsError

namespace Settings

/-- The settings in force when nothing is chosen; one worker for each of the
machine's hardware threads. -/
def standard (hardwareThreads : Word) : Settings where
  memoryLimit := 1073741824
  maxThreads := hardwareThreads
  blockFactor := 16
  maxResults := 10000
  showFailedReads := false

/-- Accept settings, or name the first one that has to be positive and is
not. -/
def validate (settings : Settings) : Except SettingsError Unit :=
  if settings.maxThreads = 0 then
    .error (.notPositive .maxThreads)
  else if settings.blockFactor = 0 then
    .error (.notPositive .blockFactor)
  else if settings.memoryLimit = 0 then
    .error (.notPositive .memoryLimit)
  else
    .ok ()

end Settings

end MemoryProbe
