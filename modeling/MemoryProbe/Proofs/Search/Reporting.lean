import MemoryProbe.Proofs.Search.Merging
import MemoryProbe.Proofs.Writing

namespace MemoryProbe
namespace MatchReport

/-!
The text of a report.  The printed entries are a function of the merged matches, and
a report that is not too long writes exactly these.
-/

/-- The printed head of a region of a report, with the line that ends it. -/
def headText (report : MatchReport) (region : Region) : String :=
  String.join (region.header (report.target.regionModule region)) ++ "\n"

/-- The printed entries, below the region that was printed last. -/
def entriesText (report : MatchReport) (current : Option Nat) : List MatchEntry -> String
  | [] => ""
  | entry :: rest =>
    let head :=
      if current = some entry.regionIndex then ""
      else
        (if current.isSome then "\n" else "")
          ++ ((report.regions[entry.regionIndex]?).map report.headText).getD ""
    head ++ ("\tMatch at address: " ++ entry.address.text ++ "\n"
      ++ entriesText report (some entry.regionIndex) rest)

/-- The printed report of some matches, as they were found and merged. -/
def text (report : MatchReport) (rawMatches : Nat) (entries : List MatchEntry) : String :=
  if rawMatches = 0 then "*** No matches found. ***\n"
  else
    "*** Approximate number of matches: " ++ toString rawMatches ++ " ***\n" ++ "\n"
      ++ (entriesText report none entries ++ "\n")

variable {report : MatchReport}

/-- Printing entries of regions that exist writes them. -/
theorem emits_listEntries {Cause : Type} [OfIoError Cause] {current : Option Nat}
    {entries : List MatchEntry}
    (valid : forall entry, entry ∈ entries ->
      ∃ region, report.regions[entry.regionIndex]? = some region) :
    (report.listEntries current entries : Run Cause Unit).Emits ()
      (report.entriesText current entries) := by
  induction entries generalizing current with
  | nil => exact Run.emits_pure ()
  | cons entry rest ih =>
      rcases valid entry List.mem_cons_self with ⟨region, there⟩
      have later := @ih (some entry.regionIndex) fun other member =>
        valid other (List.mem_cons_of_mem _ member)
      let printed : Run Cause Unit := do
        Run.writeLine ("\tMatch at address: " ++ entry.address.text)
        report.listEntries (some entry.regionIndex) rest
      let headed : Run Cause Unit := do
        (region.header (report.target.regionModule region)).forM Run.write
        Run.writeLine ""
        printed
      have prints : printed.Emits () ("\tMatch at address: " ++ entry.address.text ++ "\n"
          ++ report.entriesText (some entry.regionIndex) rest) :=
        (Run.emits_writeLine _).then later
      have heads : headed.Emits () (report.headText region
          ++ ("\tMatch at address: " ++ entry.address.text ++ "\n"
            ++ report.entriesText (some entry.regionIndex) rest)) := by
        unfold headText
        rw [String.append_assoc]
        exact (Run.emits_forM _).then ((Run.emits_writeLine "").then prints)
      unfold listEntries entriesText
      rw [there, Option.map_some, Option.getD_some]
      by_cases same : current = some entry.regionIndex
      · rw [if_pos same, if_neg (not_not_intro same), String.empty_append]
        exact prints
      · rw [if_neg same, if_pos same]
        cases current with
        | none =>
            have unspaced : "" ++ report.headText region = report.headText region :=
              String.empty_append
            rw [<- unspaced] at heads
            exact heads
        | some before => exact (Run.emits_writeLine "").then heads

/-- A report ends early exactly if there are too many matches; otherwise it writes them,
merged into one list. -/
theorem emits_write {hits : List (List Address)}
    (valid : forall entry, entry ∈ mergeMatches report.blocks hits ->
      ∃ region, report.regions[entry.regionIndex]? = some region) :
    ∃ summary text, (report.write hits : Run ScanError ReportSummary).Emits summary text ∧
      summary.rawMatches = hits.flatten.length ∧
      (summary.outcome = .tooMany <-> report.maxResults.toNat < summary.rawMatches) ∧
      (summary.outcome ≠ .tooMany ->
        text = report.text summary.rawMatches (mergeMatches report.blocks hits)) := by
  unfold write MatchReport.text
  dsimp only
  by_cases none : hits.flatten.length = 0
  · rw [if_pos none]
    refine ⟨_, _, (Run.emits_writeLine _).then (Run.emits_pure _), rfl, ?_, fun _ => ?_⟩
    · refine ⟨fun wrong => by contradiction, fun many => ?_⟩
      change report.maxResults.toNat < hits.flatten.length at many
      omega
    · rw [if_pos none, String.append_empty]
      rfl
  · rw [if_neg none]
    by_cases many : report.maxResults.toNat < hits.flatten.length
    · rw [if_pos many]
      exact ⟨_, _, (Run.emits_writeLine _).then (Run.emits_pure _), rfl,
        ⟨fun _ => many, fun _ => rfl⟩, fun few => absurd rfl few⟩
    · rw [if_neg many]
      refine ⟨_, _, (Run.emits_writeLine _).then ((emits_listEntries valid).then
        ((Run.emits_writeLine "").then (Run.emits_pure _))), rfl, ?_, fun _ => ?_⟩
      · exact ⟨fun wrong => by contradiction, fun wrong => absurd wrong many⟩
      · rw [if_neg none, String.append_empty]
        rfl

/-- A report counts the matches of all blocks; it gives up beyond the limit, and else it
lists each address once, if there is any. -/
theorem summary_of_write {Cause : Type} [OfIoError Cause] {hits : List (List Address)}
    {summary : ReportSummary} {trace later : Trace}
    (written : (report.write hits : Run Cause ReportSummary) trace = (.ok summary, later)) :
    summary.rawMatches = hits.flatten.length ∧
      (summary.outcome = .tooMany -> report.maxResults.toNat < hits.flatten.length) ∧
      (summary.outcome = .listed -> hits.flatten.length ≠ 0 ∧
        hits.flatten.length ≤ report.maxResults.toNat ∧
        summary.uniqueMatches = (mergeMatches report.blocks hits).length) := by
  unfold write at written
  dsimp only at written
  by_cases none : hits.flatten.length = 0
  · rw [if_pos none] at written
    rcases Run.exists_of_bind written with ⟨_, _, -, rest⟩
    cases rest
    exact ⟨rfl, nofun, nofun⟩
  · rw [if_neg none] at written
    by_cases many : report.maxResults.toNat < hits.flatten.length
    · rw [if_pos many] at written
      rcases Run.exists_of_bind written with ⟨_, _, -, rest⟩
      cases rest
      exact ⟨rfl, fun _ => many, nofun⟩
    · rw [if_neg many] at written
      rcases Run.exists_of_bind written with ⟨_, _, -, listing⟩
      rcases Run.exists_of_bind listing with ⟨_, _, -, ending⟩
      rcases Run.exists_of_bind ending with ⟨_, _, -, rest⟩
      cases rest
      exact ⟨rfl, nofun, fun _ => ⟨none, Nat.le_of_not_lt many, rfl⟩⟩

end MatchReport
end MemoryProbe
