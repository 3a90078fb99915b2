import MemoryProbe.Settings

namespace MemoryProbe

/-!
Causes that end a scan before its report.
-/

/-- Why regions cannot be cut into blocks. -/
inductive LayoutDefect where
  | granularity (value : Word)
  | noFactor
  | overflow
deriving DecidableEq, Repr

def LayoutDefect.text : LayoutDefect -> String
  | .granularity value =>
    "allocation granularity 0x" ++ Text.hex value.toNat ++ " is not a power of two"
  | .noFactor => "block factor must be greater than 0"
  | .overflow => "block size overflows"

/-- Why a scan ends without a report. -/
inductive ScanError where
  | emptyPattern
  | invalidLayout (defect : LayoutDefect)
  | budgetExceeded (requested ceiling : Word)
  | allocation (requested : Word)
  | workerPanicked (worker : Nat)
  | memory (cause : MemoryError)
  | settings (cause : SettingsError)
  | io (cause : IoError)
deriving DecidableEq, Repr

instance : OfIoError ScanError where
  ofIoError := .io

namespace ScanError

def message : ScanError -> String
  | .emptyPattern => "Pattern must not be empty"
  | .invalidLayout defect => "Invalid block layout: " ++ defect.text
  | .budgetExceeded requested ceiling =>
    "Request of " ++ toString requested.toNat
      ++ " bytes can never fit a scan budget of " ++ toString ceiling.toNat ++ " bytes"
  | .allocation requested =>
    "Buffer allocation of " ++ toString requested.toNat ++ " bytes failed"
  | .workerPanicked worker => "Scan worker " ++ toString worker ++ " panicked"
  | .memory cause => cause.message
  | .settings cause => cause.message
  | .io cause => "IO error: " ++ cause.message

/-- The messages of the failure and of what caused it, outermost first. -/
def chain : ScanError -> List String
  | .memory cause => cause.chain
  | .settings cause => cause.chain
  | .io cause => [message (.io cause), cause.message]
  | other => [other.message]

end ScanError

end MemoryProbe
