import MemoryProbe.Kernel.Image
import MemoryProbe.Kernel.RegionTable
import MemoryProbe.Machine
import MemoryProbe.Target

namespace MemoryProbe

/-!
Processes of a machine.  Opening one takes its mappings; they stay as they were
at that moment, while its memory is read as it is at each read.
-/

/-- A process with its mappings at the moment of opening. -/
structure LiveProcess where
  pid : UInt32
  mappings : List Mapping
  images : List ImageModule
  regions : List Region
deriving Repr

namespace LiveProcess

/-- Why a process could not be opened, by why its mappings could not be read. -/
def openError (pid : UInt32) (cause : IoError) : MemoryError :=
  let code := cause.code?.getD 0
  if code = 2 then .processNotFound pid
  else if code = 1 ∨ code = 13 then .accessDenied pid code
  else .openFailed pid code

/-- What a failed read says about the process as a whole: it is out of reach,
or nothing if only the address is. -/
def accessError? (pid : UInt32) (code : Int) : Option MemoryError :=
  if code = 1 ∨ code = 13 then some (.accessDenied pid code)
  else if code = 3 then some (.processNotFound pid)
  else if code = 38 then some (.openFailed pid code)
  else none

def ofMappings (pid : UInt32) (mappings : List Mapping) : LiveProcess :=
  let images := ImageModule.ofMappings mappings
  { pid := pid
    mappings := mappings
    images := images
    regions := Mapping.regions mappings images }

/-- Take the mappings of a process. -/
def openOn (machine : Machine) (pid : UInt32) : Except MemoryError LiveProcess := do
  let listing <- (machine.readText (Machine.mapsPath pid)).mapError (openError pid)
  let mappings <- Mapping.ofListing listing
  return ofMappings pid mappings

/-- The region that holds an address, or the gap that starts there. -/
def query (process : LiveProcess) (address : Address) :
    Except (Halt MemoryError) (Option Region) :=
  liftM (queryRegions process.regions address)

/-- The file of the first image at a base. -/
def modulePath (process : LiveProcess) (base : Address) : Option String :=
  (process.images.find? fun image => image.base == base.value).map ImageModule.path

/-- Bytes of the memory of a process; reading none always succeeds. -/
def readOn (machine : Machine) (pid : UInt32) (earlierReads : Nat)
    (address : Address) (length : Nat) : Except MemoryError (List UInt8) :=
  if length = 0 then
    .ok []
  else
    (machine.readMemory pid earlierReads address length).mapError
      fun code => .readFailed address code

def target (process : LiveProcess) (machine : Machine) : Target where
  pid := process.pid
  query := process.query
  read := readOn machine process.pid
  modulePath := process.modulePath
  imagePath := (machine.readLink (Machine.executablePath process.pid)).toOption

/-- The bytes that are read to see whether a process can be read. -/
def probeLength : Nat := 8

/-- The region that is tried to see whether a process can be read: the first
readable one. -/
def probed? (process : LiveProcess) : Option Region :=
  process.regions.find? fun region => region.protection.canRead

/-- Open a process and see, after some reads, whether its memory can be read: one
word at the base of its first readable region.  A failure that concerns that
address only does not count. -/
def openReadable (machine : Machine) (pid : UInt32) (earlierReads : Nat := 0) :
    Except MemoryError LiveProcess := do
  let process <- openOn machine pid
  match process.probed? with
  | none => return process
  | some region =>
    match (process.target machine).read earlierReads region.base probeLength with
    | .error (.readFailed _ code) =>
      match accessError? pid code with
      | some cause => throw cause
      | none => return process
    | _ => return process

/-- The number of reads that this takes. -/
def probeCount (machine : Machine) (pid : UInt32) : Nat :=
  match openOn machine pid with
  | .error _ => 0
  | .ok process => if process.probed?.isSome then 1 else 0

/-- Open a process for reading within a run, which counts the read. -/
def openReadableIn {Cause : Type} (machine : Machine) (pid : UInt32) :
    Run Cause (Except MemoryError LiveProcess) :=
  fun trace =>
    (.ok (openReadable machine pid trace.reads),
      { trace with reads := trace.reads + probeCount machine pid })

end LiveProcess

end MemoryProbe
