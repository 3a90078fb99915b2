import MemoryProbe.Region.Survey
import MemoryProbe.Search.Reader

namespace MemoryProbe

/-!
A scan: find the committed regions, cut them into blocks, read and match the
blocks, and report.  Everything that can be refused without looking at the
process is refused before the first line is written.  How the planned blocks are
read is left open in `scanReading`; `scan` has one reader handle them in order.
-/

/-- What a scan found, in numbers. -/
structure ScanSummary where
  regions : Nat
  blocks : Nat
  workers : Nat
  failedBlocks : Nat
  rawMatches : Nat
  uniqueMatches : Nat
  outcome : ReportOutcome
deriving DecidableEq, Repr

/-- How one process is scanned. -/
structure Scanner where
  target : Target
  settings : Settings
  /-- The unit in which the system hands out addresses. -/
  granularity : Word
  tellsFailures : Bool
  hardwareThreads : Word

namespace Scanner

/-- The usual size of a page. -/
def usualPageSize : Int := 4096

/-- The unit in which a system hands out addresses: the page size that it tells, or
the usual one if it tells none. -/
def allocationGranularity (pageSize : Int) : Word :=
  UInt64.ofNat (if 0 < pageSize then pageSize else usualPageSize).toNat

/-- A scanner that tells failures if its settings say so, for a machine that runs so
many threads at a time and tells that page size. -/
def ofSettings (target : Target) (settings : Settings) (hardwareThreads : Word)
    (pageSize : Int := usualPageSize) : Scanner where
  target := target
  settings := settings
  granularity := allocationGranularity pageSize
  tellsFailures := settings.showFailedReads
  hardwareThreads := hardwareThreads

/-- The sum of the sizes of some regions; it has to be a word. -/
def totalSize (regions : List Region) : Except Fault Word :=
  regions.foldlM (fun total region => Word.sum total region.size) 0

/-- How the blocks of a scan are read. -/
def reader (scanner : Scanner) : Reader where
  target := scanner.target
  tellsFailures := scanner.tellsFailures
  maxThreads := scanner.settings.maxThreads
  hardwareThreads := scanner.hardwareThreads

/-- A fresh budget for the read buffers of a scan. -/
def budget (scanner : Scanner) : Budget where
  ceiling := scanner.settings.memoryLimit

/-- Read the planned blocks under a fresh budget. -/
def readBlocks (scanner : Scanner) (pattern : Pattern) (regions : List Region)
    (blocks : List ReadBlock) : Run ScanError ReadOutcome :=
  fun trace =>
    let ((answer, _), later) :=
      scanner.reader.run pattern regions blocks scanner.budget trace
    (answer, later)

/-- Refuse a plan with a block that exceeds the memory limit. -/
def permit (scanner : Scanner) (blocks : List ReadBlock) : Except ScanError Unit :=
  match longestBlock? blocks with
  | none => .ok ()
  | some longest =>
    if scanner.settings.memoryLimit < longest then
      .error (.budgetExceeded longest scanner.settings.memoryLimit)
    else
      .ok ()

/-- A way to read the planned blocks of some regions. -/
abbrev ReadPhase : Type :=
  Pattern -> List Region -> List ReadBlock -> Run ScanError ReadOutcome

/-- Scan for some bytes, with a given way to read the planned blocks. -/
def scanReading (scanner : Scanner) (reads : ReadPhase) (bytes : List UInt8) :
    Run ScanError ScanSummary := do
  Run.ofExcept (scanner.settings.validate.mapError .settings)
  let pattern <- Run.ofExcept (Pattern.ofBytes bytes)
  let patternLength := UInt64.ofNat pattern.length
  let layout <- Run.ofHalting
    (BlockLayout.make scanner.granularity scanner.settings.blockFactor patternLength)
  Run.writeLine "Searching committed memory..."
  Run.writeLine ("\n" ++ reportRule ++ "\n")
  let survey : Survey := { minimumSize := patternLength }
  let regions <- survey.run scanner.target
  let blocks <- Run.ofChecked (layout.plan regions)
  Run.ofExcept (scanner.permit blocks)
  let _ <- Run.ofChecked (totalSize regions)
  let outcome <- reads pattern regions blocks
  let report : MatchReport :=
    { target := scanner.target
      regions := regions
      blocks := blocks
      maxResults := scanner.settings.maxResults }
  let summary <- report.write outcome.hits
  return {
    regions := regions.length
    blocks := blocks.length
    workers := outcome.workers
    failedBlocks := outcome.failedBlocks
    rawMatches := summary.rawMatches
    uniqueMatches := summary.uniqueMatches
    outcome := summary.outcome }

def scan (scanner : Scanner) (bytes : List UInt8) : Run ScanError ScanSummary :=
  scanner.scanReading scanner.readBlocks bytes

end Scanner

end MemoryProbe
