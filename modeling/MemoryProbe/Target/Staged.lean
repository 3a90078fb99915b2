import MemoryProbe.Target

namespace MemoryProbe

/-!
Staged processes: address spaces that are written down region by region, each
with its contents and with the number of bytes of it that can be read.  They
answer every question from this table alone and never change.
-/

/-- A region with its contents, of which only a leading part can be read. -/
structure StagedRegion where
  region : Region
  contents : List UInt8
  readable : Nat
deriving Repr

/-- A process that is written down. -/
structure StagedProcess where
  pid : UInt32 := 1
  /-- The regions by rising base; regions of equal base keep the order in
  which they were staged. -/
  regions : List StagedRegion := []
  /-- The files of the images by their base, the latest first. -/
  modules : List (Address × String) := []
  imagePath : Option String := none
  /-- An address whose query fails. -/
  failingQuery : Option Address := none

namespace StagedProcess

/-- The code of reads that find nothing to copy. -/
def unreadableCode : Int := 14

def failedQueryCode : Int := 87

/-- Put a region behind all regions whose base is not higher. -/
def insert (staged : StagedRegion) : List StagedRegion -> List StagedRegion
  | [] => [staged]
  | first :: rest =>
    if first.region.base ≤ staged.region.base then
      first :: insert staged rest
    else
      staged :: first :: rest

def stage (process : StagedProcess) (staged : StagedRegion) : StagedProcess :=
  { process with regions := insert staged process.regions }

/-- Stage committed private memory. -/
def withRegion (process : StagedProcess) (base : Address)
    (contents : List UInt8) (protection : Protection) : StagedProcess :=
  let size := UInt64.ofNat contents.length
  process.stage
    ⟨Region.committedPrivate base size protection, contents, contents.length⟩

/-- Stage committed memory of which only the first `readable` bytes can be
read. -/
def withPartialRegion (process : StagedProcess) (base : Address)
    (contents : List UInt8) (readable : Nat) : StagedProcess :=
  let size := UInt64.ofNat contents.length
  process.stage
    ⟨Region.committedPrivate base size Protection.readable, contents,
      min readable contents.length⟩

/-- Stage committed memory that cannot be read. -/
def withUnreadable (process : StagedProcess) (base : Address) (size : Word) :
    StagedProcess :=
  process.stage
    ⟨Region.committedPrivate base size { read := true, guard := true }, [], 0⟩

def withReserved (process : StagedProcess) (base : Address) (size : Word) :
    StagedProcess :=
  process.stage
    ⟨{ Region.committedPrivate base size Protection.none with
        state := .reserved
        kind := .unspecified }, [], 0⟩

/-- Stage an image loaded from a file. -/
def withImage (process : StagedProcess) (base : Address)
    (contents : List UInt8) (path : String) : StagedProcess :=
  let size := UInt64.ofNat contents.length
  let region :=
    { Region.committedPrivate base size { read := true, execute := true } with
      kind := .image }
  { process.stage ⟨region, contents, contents.length⟩ with
    modules := (base, path) :: process.modules }

/-- Answer a query from a table of regions: the first region, in order, that
either holds the address or begins above it decides. -/
def queryTable (address : Address) :
    List StagedRegion -> Except Fault (Option Region)
  | [] => .ok none
  | staged :: rest =>
    if staged.region.contains address then
      .ok (some staged.region)
    else if address < staged.region.base then do
      let size <- staged.region.base.since address
      return some (Region.gap address size)
    else
      queryTable address rest

/-- The region that holds an address, or the gap that starts there. -/
def query (process : StagedProcess) (address : Address) :
    Except (Halt MemoryError) (Option Region) :=
  if process.failingQuery = some address then
    .error (.failure (.queryFailed address failedQueryCode))
  else
    liftM (queryTable address process.regions)

/-- The bytes at an address, as far as they can be read. -/
def read (process : StagedProcess) (address : Address) (length : Nat) :
    Except MemoryError (List UInt8) :=
  let holds (staged : StagedRegion) : Bool :=
    staged.region.contains address && staged.region.isCommitted
  match process.regions.find? holds with
  | none => .error (.readFailed address unreadableCode)
  | some staged =>
    let offset := address.toNat - staged.region.base.toNat
    if staged.readable ≤ offset then
      .error (.readFailed address unreadableCode)
    else
      let count := min length (staged.readable - offset)
      .ok ((staged.contents.drop offset).take count)

def target (process : StagedProcess) : Target where
  pid := process.pid
  query := process.query
  read _ := process.read
  modulePath base := process.modules.lookup base
  imagePath := process.imagePath

end StagedProcess

end MemoryProbe
