import MemoryProbe.Region
import MemoryProbe.Failure
import MemoryProbe.Text.Lines
import MemoryProbe.Text.Number

namespace MemoryProbe

/-!
The kernel's listing of a process's mappings, one mapping a line: the range,
the permissions, the offset in the mapped file, the device, the inode and the
path.  Single white-space characters separate the first five columns; the rest
of the line, trimmed, is the path.
-/

structure Mapping where
  start : Word
  stop : Word
  protection : Protection
  offset : Word
  inode : Word
  path : Option String
deriving DecidableEq, Repr

namespace Mapping

/-- The cause of failure of a line that is no mapping. -/
def malformed (line : List Char) : MemoryError :=
  .malformed "maps line" (String.ofList line)

/-- The two ends of a range such as `400000-401000`; the second is not below
the first. -/
def range? (column : List Char) : Option (Word × Word) := do
  let (lower, upper) <- Text.splitOnce? (· = '-') column
  let start <- Text.word? 16 lower
  let stop <- Text.word? 16 upper
  if start ≤ stop then some (start, stop) else none

/-- The path that the rest of a line names, if it names one. -/
def path? (rest : List (List Char)) : Option String :=
  match rest with
  | [] => none
  | column :: _ =>
    let trimmed := Text.trim column
    if trimmed.isEmpty then none else some (String.ofList trimmed)

/-- Read a mapping from the columns of a line. -/
def ofColumns? : List (List Char) -> Option Mapping
  | range :: permissions :: offset :: _device :: inode :: rest => do
    let (start, stop) <- range? range
    let offset <- Text.word? 16 offset
    let inode <- Text.word? 10 inode
    return {
      start := start
      stop := stop
      protection := Protection.ofColumn permissions
      offset := offset
      inode := inode
      path := path? rest }
  | _ => none

/-- Read a line. -/
def ofLine (line : List Char) : Except MemoryError Mapping :=
  match ofColumns? (Text.piecesUpTo Text.isBlank 6 line) with
  | some mapping => .ok mapping
  | none => .error (malformed line)

/-- Read a whole listing; blank lines do not count.  The first line that is no
mapping is the cause of failure. -/
def ofListing (text : List Char) : Except MemoryError (List Mapping) :=
  ((Text.lines text).filter fun line => !(Text.trim line).isEmpty).mapM ofLine

/-- Whether the mapping maps a file: it has an inode and an absolute path. -/
def isFileBacked (mapping : Mapping) : Bool :=
  mapping.inode != 0 && mapping.path.any fun path => path.toList.head? == some '/'

def size (mapping : Mapping) : Word :=
  mapping.stop - mapping.start

end Mapping

end MemoryProbe
