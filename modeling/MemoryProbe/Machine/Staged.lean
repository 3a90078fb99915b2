import MemoryProbe.Machine

namespace MemoryProbe

/-!
Staged machines: files, links, directories and process memory that are written
down.  The directories that lead to something exist, and `/proc` always does.
-/

/-- A stretch of process memory. -/
structure MemorySegment where
  base : Nat
  contents : Array UInt8
deriving Repr

namespace MemorySegment

/-- The byte at an address, if the segment holds the address. -/
def byte? (segment : MemorySegment) (address : Nat) : Option UInt8 :=
  if segment.base ≤ address then
    segment.contents[address - segment.base]?
  else
    none

/-- Copy up to `length` bytes from an address on, behind those copied before.
The first segment that holds an address gives its byte, and the copy ends at
the first address that no segment holds. -/
def copy (segments : List MemorySegment) (address : Nat) (copied : List UInt8) :
    (length : Nat) -> List UInt8
  | 0 => copied.reverse
  | length + 1 =>
    match segments.findSome? fun segment => segment.byte? address with
    | some byte => copy segments (address + 1) (byte :: copied) length
    | none => copied.reverse

end MemorySegment

/-- The memory of a process, or the code with which every read of it fails. -/
inductive StagedMemory where
  | segments (segments : List MemorySegment)
  | refused (code : Int)
deriving Repr

/-- A machine that is written down. -/
structure StagedMachine where
  files : List (String × List UInt8) := []
  links : List (String × String) := []
  directories : List String := []
  /-- Paths that cannot be opened, listed or followed, with the codes. -/
  errors : List (String × Int) := []
  /-- The memory of each process by its number. -/
  memory : List (Nat × StagedMemory) := []

namespace StagedMachine

/-- The codes of the operating system for what goes wrong here. -/
def noSuchFile : Int := 2

/-- The code of a process that does not exist. -/
def noSuchProcess : Int := 3

/-- The code of an address without memory. -/
def badAddress : Int := 14

/-- The code of a file where a directory is needed. -/
def notADirectory : Int := 20

/-- The code of a directory where a file is needed. -/
def isADirectory : Int := 21

/-- The code of following what is no link. -/
def invalidArgument : Int := 22

/-- What a path leads to. -/
inductive Entry where
  | file (contents : List UInt8)
  | link (destination : String)
  | directory
deriving Repr

/-- The paths that are written down. -/
def paths (machine : StagedMachine) : List String :=
  machine.files.map Prod.fst ++ machine.links.map Prod.fst
    ++ machine.directories ++ ["/proc"]

/-- The part of a path below a directory, if it lies below. -/
def below? (directory path : String) : Option (List Char) :=
  let marker := directory.toList ++ ['/']
  if marker.isPrefixOf path.toList then
    some (path.toList.drop marker.length)
  else
    none

/-- What a path leads to, or the code of the failure. -/
def find (machine : StagedMachine) (path : String) : Except Int Entry :=
  match machine.errors.lookup path with
  | some code => .error code
  | none =>
    match machine.files.lookup path with
    | some contents => .ok (.file contents)
    | none =>
      match machine.links.lookup path with
      | some destination => .ok (.link destination)
      | none =>
        if machine.paths.any fun known => known == path || (below? path known).isSome then
          .ok .directory
        else if machine.files.any fun file => (below? file.1 path).isSome then
          .error notADirectory
        else
          .error noSuchFile

/-- The contents of a file. -/
def readFile (machine : StagedMachine) (path : String) :
    Except IoError (List UInt8) :=
  match machine.find path with
  | .ok (.file contents) => .ok contents
  | .ok (.link _) => .error (.os noSuchFile)
  | .ok .directory => .error (.os isADirectory)
  | .error code => .error (.os code)

/-- The names in a directory. -/
def listDirectory (machine : StagedMachine) (path : String) :
    Except IoError (List String) :=
  match machine.find path with
  | .ok .directory =>
    let names := machine.paths.filterMap fun known =>
      (below? path known).map fun rest =>
        String.ofList (rest.takeWhile fun character => character != '/')
    .ok names.eraseDups
  | .ok _ => .error (.os notADirectory)
  | .error code => .error (.os code)

/-- The target of a link. -/
def readLink (machine : StagedMachine) (path : String) : Except IoError String :=
  match machine.find path with
  | .ok (.link destination) => .ok destination
  | .ok _ => .error (.os invalidArgument)
  | .error code => .error (.os code)

/-- Bytes of a process's memory.  Nothing to copy is a failure unless nothing
was asked for. -/
def readMemory (machine : StagedMachine) (pid : UInt32) (address : Address)
    (length : Nat) : Except Int (List UInt8) :=
  match machine.memory.lookup pid.toNat with
  | none => .error noSuchProcess
  | some (.refused code) => .error code
  | some (.segments segments) =>
    let copied := MemorySegment.copy segments address.toNat [] length
    if copied.isEmpty && length != 0 then .error badAddress else .ok copied

def machine (staged : StagedMachine) : Machine where
  readFile := staged.readFile
  listDirectory := staged.listDirectory
  readLink := staged.readLink
  readMemory pid _ := staged.readMemory pid

end StagedMachine

end MemoryProbe
