import MemoryProbe.Proofs.Reciting
import MemoryProbe.Proofs.Search.Ordering

namespace MemoryProbe

/-!
What a scan asks its output for.  The report only prints.  The survey and the reading of the
blocks are silent, in whatever order the blocks are read, so a scan asks for the same lines
whatever the output and fails at the first line that is refused.
-/

open Run

namespace MatchReport

variable {Cause : Type} [OfIoError Cause] (report : MatchReport)

theorem printing_listEntries (current : Option Nat) (entries : List MatchEntry) :
    (report.listEntries current entries : Run Cause Unit).Printing := by
  induction entries generalizing current with
  | nil => exact printing_pure ()
  | cons entry rest ih =>
      have line : (writeLine ("\tMatch at address: " ++ entry.address.text) :
        Run Cause Unit).Printing := printing_writeLine _
      have prints := line.then (ih (some entry.regionIndex))
      unfold listEntries
      dsimp only
      split
      · split
        · refine (printing_writeLine "").then ?_
          split
          · exact (printing_halt _).then prints
          · exact (printing_forM printing_write).then ((printing_writeLine "").then prints)
        · split
          · exact (printing_halt _).then prints
          · exact (printing_forM printing_write).then ((printing_writeLine "").then prints)
      · exact prints

theorem printing_write (hits : List (List Address)) :
    (report.write hits : Run Cause ReportSummary).Printing := by
  unfold MatchReport.write
  dsimp only
  split
  · exact (printing_writeLine _).then (printing_pure _)
  · split
    · exact (printing_writeLine _).then (printing_pure _)
    · refine (printing_writeLine _).then ?_
      refine (report.printing_listEntries none _).then ?_
      exact (printing_writeLine _).then (printing_pure _)

end MatchReport

theorem Reader.silent_skip (reader : Reader) (region : Region) (failure : ReadFailure) :
    Silent (reader.skip region failure : Run ScanError Unit) := by
  intro sink trace
  unfold Reader.skip
  split
  · unfold ReadFailure.tell
    dsimp only
    rcases trace.diagnostics.writeAll (region.header (reader.target.regionModule region)) with
      ⟨_ | _, titled⟩
    · rfl
    · rcases failure.text with kind | text
      · rfl
      · dsimp only
        rcases titled.ask (.write text) with ⟨_ | _, told⟩ <;> rfl
  · rfl

/-- Telling about a skipped block does not see the output. -/
theorem Reader.tellsThrough_out (reader : Reader) (sink : Sink) :
    reader.TellsThrough reader.tellsFailures (fun trace => { trace with out := sink })
      fun _ => True where
  reads _ := rfl
  counted _ := rfl
  skip region failure _ := reader.silent_skip region failure sink
  failed _ := trivial
  short _ _ _ _ _ := trivial

theorem Survey.silent_run {Cause : Type} (survey : Survey) (target : Target) :
    Silent (survey.run target : Run Cause (List Region)) := by
  intro sink trace
  unfold Survey.run
  dsimp only
  split <;> rfl

namespace Scanner

theorem silent_readsIn (scanner : Scanner) (order : ReadOrder) (pattern : Pattern)
    (regions : List Region) (blocks : List ReadBlock) :
    Silent (scanner.readsIn order pattern regions blocks) := fun sink =>
  mirrors_readsIn (scanner.reader.tellsThrough_out sink) order pattern regions blocks

theorem recites_scanReading (scanner : Scanner) (order : ReadOrder) (bytes : List UInt8) :
    (scanner.scanReading (scanner.readsIn order) bytes).Recites IsRefusal := by
  unfold scanReading
  refine (printing_ofExcept _).recites.bind fun _ => ?_
  refine (printing_ofExcept _).recites.bind fun pattern => ?_
  refine (printing_ofHalting _).recites.bind fun layout => ?_
  refine (printing_writeLine _).recites.bind fun _ => ?_
  refine (printing_writeLine _).recites.bind fun _ => ?_
  refine (Recites.of_silent (Survey.silent_run _ _)).bind fun regions => ?_
  refine (printing_ofChecked _).recites.bind fun blocks => ?_
  refine (printing_ofExcept _).recites.bind fun _ => ?_
  refine (printing_ofChecked _).recites.bind fun _ => ?_
  refine (Recites.of_silent (scanner.silent_readsIn order _ _ _)).bind fun outcome => ?_
  exact ((MatchReport.printing_write _ _).bind fun summary => printing_pure _).recites

/-- A scan is one of those that read in some order. -/
theorem scan_eq_scanReading (scanner : Scanner) (bytes : List UInt8) :
    scanner.scan bytes = scanner.scanReading (scanner.readsIn .inTurn) bytes :=
  rfl

end Scanner
end MemoryProbe
