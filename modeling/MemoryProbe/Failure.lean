import MemoryProbe.Address

namespace MemoryProbe

/-!
Causes of failure of the operating-system interface.  Every cause has one
printed form.  Some carry the code of the operating system.
-/

/-- A failure of reading or writing. -/
inductive IoError where
  /-- The operating system refused, with this code. -/
  | os (code : Int)
  /-- Bytes that should be text are not UTF-8. -/
  | invalidText
  /-- The receiver of output takes no more. -/
  | sinkFull
  /-- A failure known by its description only. -/
  | described (text : String)
deriving DecidableEq, Repr

namespace IoError

/-- The operating system's wording of a code. -/
def codeText (code : Int) : String :=
  match code with
  | 1 => "Operation not permitted"
  | 2 => "No such file or directory"
  | 3 => "No such process"
  | 4 => "Interrupted system call"
  | 5 => "Input/output error"
  | 9 => "Bad file descriptor"
  | 11 => "Resource temporarily unavailable"
  | 12 => "Cannot allocate memory"
  | 13 => "Permission denied"
  | 14 => "Bad address"
  | 16 => "Device or resource busy"
  | 20 => "Not a directory"
  | 21 => "Is a directory"
  | 22 => "Invalid argument"
  | 23 => "Too many open files in system"
  | 24 => "Too many open files"
  | 36 => "File name too long"
  | 38 => "Function not implemented"
  | 40 => "Too many levels of symbolic links"
  | _ => "Unknown error " ++ toString code

def message : IoError -> String
  | .os code => codeText code ++ " (os error " ++ toString code ++ ")"
  | .invalidText => "stream did not contain valid UTF-8"
  | .sinkFull => "sink full"
  | .described text => text

/-- The operating system's code, if there is one. -/
def code? : IoError -> Option Int
  | .os code => some code
  | _ => none

end IoError

/-- A failure of looking into a process. -/
inductive MemoryError where
  | io (cause : IoError)
  | processNotFound (pid : UInt32)
  | accessDenied (pid : UInt32) (code : Int)
  | openFailed (pid : UInt32) (code : Int)
  | queryFailed (address : Address) (code : Int)
  | readFailed (address : Address) (code : Int)
  | snapshotFailed (what : String) (code : Int)
  | allocation (requested : Word)
  | malformed (what : String) (detail : String)
  | notSupported (what : String)
deriving DecidableEq, Repr

namespace MemoryError

def message : MemoryError -> String
  | .io cause => "IO error: " ++ cause.message
  | .processNotFound pid => "Process " ++ toString pid.toNat ++ " not found"
  | .accessDenied pid code =>
    "Access to process " ++ toString pid.toNat ++ " denied. Error code: " ++ toString code
  | .openFailed pid code =>
    "Failed opening process " ++ toString pid.toNat ++ ". Error code: " ++ toString code
  | .queryFailed address code =>
    "Region query failed at " ++ address.text ++ ". Error code: " ++ toString code
  | .readFailed address code =>
    "Failed reading process memory at " ++ address.text ++ ". Error code: " ++ toString code
  | .snapshotFailed what code => what ++ " failed. Error code: " ++ toString code
  | .allocation requested =>
    "Buffer allocation of " ++ toString requested.toNat ++ " bytes failed"
  | .malformed what detail => "Malformed " ++ what ++ ": " ++ detail
  | .notSupported what => "Not supported: " ++ what

/-- The operating system's code, if there is one. -/
def code? : MemoryError -> Option Int
  | .io cause => cause.code?
  | .accessDenied _ code => some code
  | .openFailed _ code => some code
  | .queryFailed _ code => some code
  | .readFailed _ code => some code
  | .snapshotFailed _ code => some code
  | _ => none

/-- The messages of the failure and of what caused it, outermost first. -/
def chain : MemoryError -> List String
  | .io cause => [message (.io cause), cause.message]
  | other => [other.message]

end MemoryError

/-- Causes that can be a failure of input or output. -/
class OfIoError (Cause : Type) where
  ofIoError : IoError -> Cause

instance : OfIoError IoError where
  ofIoError cause := cause

instance : OfIoError MemoryError where
  ofIoError := .io

end MemoryProbe
