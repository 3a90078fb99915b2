import MemoryProbe.Target
import MemoryProbe.Search.Layout

namespace MemoryProbe

/-!
The report of a scan.  The matches of all blocks become one list in rising
order without repeats, and each match is printed below the attributes of its
region.  Without matches, or with too many, only a notice is printed.
-/

/-- The line that sets parts of a report apart. -/
def reportRule : String :=
  "------------------------------------"

/-- The printed head of a region, as it is written piece by piece.  The name of
the module comes first if the region belongs to one. -/
def Region.header (region : Region) (moduleName : Option String) : List String :=
  let title :=
    match moduleName with
    | some name => [reportRule ++ "\n\n", "Module name: " ++ name ++ "\n"]
    | none => []
  title ++ [region.text ++ "\n"]

/-- A match and the index of the region it lies in. -/
structure MatchEntry where
  address : Address
  regionIndex : Nat
deriving DecidableEq, Repr

/-- How a report came out. -/
inductive ReportOutcome where
  | noMatches
  | tooMany
  | listed
deriving DecidableEq, Repr

/-- What a report says in numbers. -/
structure ReportSummary where
  outcome : ReportOutcome
  /-- The matches as they were found, those of overlapping blocks counted for
  each block. -/
  rawMatches : Nat
  uniqueMatches : Nat
deriving DecidableEq, Repr

/-- Keep the entries whose address differs from that of the entry before;
`previous` is the address before the first. -/
def dropRepeats (previous : Option Address) : List MatchEntry -> List MatchEntry
  | [] => []
  | entry :: rest =>
    if previous = some entry.address then
      dropRepeats previous rest
    else
      entry :: dropRepeats (some entry.address) rest

/-- The matches of a block, each with the block's region. -/
def ReadBlock.entries (block : ReadBlock) (hits : List Address) :
    List MatchEntry :=
  hits.map fun address => ⟨address, block.regionIndex⟩

/-- All matches in rising order, each address once.  Of equal addresses the one
of the first block counts. -/
def mergeMatches (blocks : List ReadBlock) (hits : List (List Address)) :
    List MatchEntry :=
  let entries := (blocks.zip hits).flatMap fun pair => pair.1.entries pair.2
  dropRepeats none
    (entries.mergeSort fun left right => decide (left.address ≤ right.address))

/-- What a report is about. -/
structure MatchReport where
  target : Target
  regions : List Region
  blocks : List ReadBlock
  maxResults : Word

namespace MatchReport

variable {Cause : Type} [OfIoError Cause]

/-- Print the matches.  A region's head is printed where its first match
follows a match of another region; `current` is the region printed last. -/
def listEntries (report : MatchReport) (current : Option Nat) :
    List MatchEntry -> Run Cause Unit
  | [] => pure ()
  | entry :: rest => do
    if current ≠ some entry.regionIndex then
      if current.isSome then
        Run.writeLine ""
      match report.regions[entry.regionIndex]? with
      | none => Run.halt .outOfRange
      | some region =>
        (region.header (report.target.regionModule region)).forM Run.write
        Run.writeLine ""
    Run.writeLine ("\tMatch at address: " ++ entry.address.text)
    listEntries report (some entry.regionIndex) rest

/-- Print the report of the matches that were found in each block. -/
def write (report : MatchReport) (hits : List (List Address)) :
    Run Cause ReportSummary := do
  let rawMatches := hits.flatten.length
  if rawMatches = 0 then
    Run.writeLine "*** No matches found. ***"
    return ⟨.noMatches, rawMatches, 0⟩
  else if report.maxResults.toNat < rawMatches then
    Run.writeLine
      ("*** Too many results: " ++ toString rawMatches
        ++ " matches exceed the limit of " ++ toString report.maxResults.toNat
        ++ ". Use a longer pattern. ***")
    return ⟨.tooMany, rawMatches, 0⟩
  else
    Run.writeLine
      ("*** Approximate number of matches: " ++ toString rawMatches ++ " ***\n")
    let unique := mergeMatches report.blocks hits
    listEntries report none unique
    Run.writeLine ""
    return ⟨.listed, rawMatches, unique.length⟩

end MatchReport

end MemoryProbe
