import MemoryProbe.Proofs.Heap.Reciting
import MemoryProbe.Proofs.Search.Reciting
import MemoryProbe.Shell.Session

namespace MemoryProbe

/-!
The commands of a session as runs.  Whatever a command does, it asks the output for the same
lines whatever the output, and one that comes to its end has ended its last line.
-/

open Run

/-! ## Ended lines -/

/-- A run that comes to an answer has ended its last line. -/
def Run.EndsLine {Cause Answer : Type} (part : Run Cause Answer) : Prop :=
  forall trace answer later, part trace = (.ok answer, later) ->
    ∃ front, later.out.text = front ++ "\n"

namespace Run

variable {Cause Answer Later : Type}

theorem endsLine_writeLine [OfIoError Cause] (text : String) :
    (writeLine text : Run Cause Unit).EndsLine := by
  intro trace answer later ran
  rcases (emits_writeLine text).of_ok ran with ⟨-, written⟩
  exact ⟨trace.out.text ++ text, by rw [written, String.append_assoc]⟩

namespace EndsLine

variable {part : Run Cause Answer}

/-- The last part decides. -/
theorem after {rest : Answer -> Run Cause Later} (ends : forall answer, (rest answer).EndsLine) :
    (part >>= rest).EndsLine := by
  intro trace result later ran
  rcases exists_of_bind ran with ⟨answer, middle, -, ended⟩
  exact ends answer middle result later ended

theorem made (ends : part.EndsLine) (make : Answer -> Later) :
    (part >>= fun answer => pure (make answer)).EndsLine := by
  intro trace result later ran
  rcases exists_of_bind ran with ⟨answer, middle, first, ended⟩
  cases ended
  exact ends trace answer later first

theorem widen {Narrow : Type} {embed : Narrow -> Cause} {narrow : Run Narrow Answer}
    (ends : narrow.EndsLine) : (Run.widen embed narrow).EndsLine := by
  intro trace answer later ran
  unfold Run.widen at ran
  rcases came : narrow trace with ⟨stop | given, middle⟩
  · rw [came] at ran
    cases ran
  · rw [came] at ran
    cases ran
    exact ends trace answer later came

end EndsLine

/-! ## Attempts -/

variable {Wider : Type} {part : Run Cause Answer} {trace later : Trace}

theorem attempt_of_ok {answer : Answer} (came : part trace = (.ok answer, later)) :
    (attempt part : Run Wider _) trace = (.ok (.ok answer), later) := by
  unfold attempt
  rw [came]

theorem attempt_of_failure {cause : Cause}
    (came : part trace = (.error (.failure cause), later)) :
    (attempt part : Run Wider _) trace = (.ok (.error cause), later) := by
  unfold attempt
  rw [came]

theorem attempt_of_fault {kind : Fault} (came : part trace = (.error (.fault kind), later)) :
    (attempt part : Run Wider _) trace = (.error (.fault kind), later) := by
  unfold attempt
  rw [came]

end Run

/-! ## Listings -/

namespace Listing

variable {Cause : Type} [OfIoError Cause]

theorem printing_writeLines (lines : List String) :
    (writeLines lines : Run Cause Unit).Printing :=
  (printing_forM printing_writeLine).then (printing_writeLine "")

theorem endsLine_writeLines (lines : List String) :
    (writeLines lines : Run Cause Unit).EndsLine :=
  .after fun _ => endsLine_writeLine ""

end Listing

namespace Machine

variable (machine : Machine) (pid : UInt32)

theorem recites_listProcesses : machine.listProcesses.Recites IsRefusal :=
  ((printing_ofHalting _).bind fun _ =>
    (Listing.printing_writeLines _).then (printing_pure _)).recites

theorem recites_listModules : (machine.listModules pid).Recites IsRefusal :=
  ((printing_ofExcept _).bind fun _ =>
    (Listing.printing_writeLines _).then (printing_pure _)).recites

theorem recites_listThreads : (machine.listThreads pid).Recites IsRefusal :=
  ((printing_ofHalting _).bind fun _ =>
    (Listing.printing_writeLines _).then (printing_pure _)).recites

theorem endsLine_listProcesses : machine.listProcesses.EndsLine :=
  .after fun _ => (Listing.endsLine_writeLines _).made _

theorem endsLine_listModules : (machine.listModules pid).EndsLine :=
  .after fun _ => (Listing.endsLine_writeLines _).made _

theorem endsLine_listThreads : (machine.listThreads pid).EndsLine :=
  .after fun _ => (Listing.endsLine_writeLines _).made _

end Machine

/-! ## Heaps and scans -/

theorem HeapWalker.endsLine_walk (walker : HeapWalker) : walker.walk.EndsLine := by
  unfold HeapWalker.walk
  split
  · exact (endsLine_writeLine _).made _
  · exact .after fun _ => .after fun _ => (endsLine_writeLine "").made _

theorem HeapListing.endsLine_walk (listing : HeapListing) (listsBlocks : Bool)
    (reader : Option (Except MemoryError Target)) :
    (listing.walk listsBlocks reader).EndsLine := by
  unfold HeapListing.walk
  rcases reader with _ | cause | target
  · exact HeapWalker.endsLine_walk _
  · exact .after fun _ => .after fun _ => HeapWalker.endsLine_walk _
  · exact HeapWalker.endsLine_walk _

theorem LiveProcess.silent_openReadableIn {Cause : Type} (machine : Machine) (pid : UInt32) :
    Silent (openReadableIn machine pid : Run Cause _) :=
  fun _ _ => rfl

theorem recites_walkProcessHeaps (machine : Machine) (pid : UInt32)
    (listsBlocks wantsEntropy : Bool) :
    (walkProcessHeaps machine pid listsBlocks wantsEntropy).Recites IsRefusal := by
  refine (printing_ofExcept _).recites.bind fun process => ?_
  cases wantsEntropy with
  | false => exact HeapListing.recites_walk _ _ _
  | true =>
      exact (Recites.of_silent (LiveProcess.silent_openReadableIn machine pid)).bind fun _ =>
        HeapListing.recites_walk _ _ _

theorem endsLine_walkProcessHeaps (machine : Machine) (pid : UInt32)
    (listsBlocks wantsEntropy : Bool) :
    (walkProcessHeaps machine pid listsBlocks wantsEntropy).EndsLine := by
  refine .after fun process => ?_
  cases wantsEntropy with
  | false => exact HeapListing.endsLine_walk _ _ _
  | true => exact .after fun _ => HeapListing.endsLine_walk _ _ _

theorem MatchReport.endsLine_write {Cause : Type} [OfIoError Cause] (report : MatchReport)
    (hits : List (List Address)) : (report.write hits : Run Cause ReportSummary).EndsLine := by
  unfold MatchReport.write
  dsimp only
  split
  · exact (endsLine_writeLine _).made _
  · split
    · exact (endsLine_writeLine _).made _
    · exact .after fun _ => .after fun _ => (endsLine_writeLine "").made _

theorem Scanner.endsLine_scan (scanner : Scanner) (bytes : List UInt8) :
    (scanner.scan bytes).EndsLine := by
  unfold scan scanReading
  exact .after fun _ => .after fun _ => .after fun _ => .after fun _ => .after fun _ =>
    .after fun _ => .after fun _ => .after fun _ => .after fun _ => .after fun _ =>
      (MatchReport.endsLine_write _ _).made _

/-! ## Commands -/

/-- The causes that a command fails for if the output refuses.  All but the first are of types
that carry failures of the command itself as well. -/
inductive CommandError.TellsRefusal : CommandError -> Prop where
  | output : TellsRefusal (.output .sinkFull)
  | memory : TellsRefusal (.memory (.io .sinkFull))
  | heap : TellsRefusal (.heap (.io .sinkFull))
  | scan : TellsRefusal (.scan (.io .sinkFull))

namespace CommandError.TellsRefusal

theorem of_isRefusal {cause : CommandError} (refusal : IsRefusal cause) :
    TellsRefusal cause :=
  refusal ▸ .output

theorem of_memory {cause : MemoryError} (refusal : IsRefusal cause) :
    TellsRefusal (.memory cause) :=
  refusal ▸ .memory

theorem of_heap {cause : HeapError} (refusal : IsRefusal cause) : TellsRefusal (.heap cause) :=
  refusal ▸ .heap

theorem of_scan {cause : ScanError} (refusal : IsRefusal cause) : TellsRefusal (.scan cause) :=
  refusal ▸ .scan

end CommandError.TellsRefusal

namespace Shell

theorem printing_writeHelp {Cause : Type} [OfIoError Cause] :
    (writeHelp : Run Cause Unit).Printing :=
  (printing_writeLine _).then
    ((printing_forM fun _ => printing_writeLine _).then (printing_writeLine _))

variable (shell : Shell) (pid : UInt32)

theorem recites_scan (pattern : List UInt8) :
    (shell.scan pid pattern).Recites CommandError.TellsRefusal := by
  have prints : forall {part : Run CommandError Unit}, part.Printing ->
      part.Recites CommandError.TellsRefusal := fun printing =>
    printing.recites.mono fun _ => .of_isRefusal
  refine (Recites.of_silent (LiveProcess.silent_openReadableIn shell.machine pid)).bind
    fun opened => ?_
  refine ((printing_ofExcept _).recites.mono fun _ => .of_isRefusal).bind fun process => ?_
  have scans : forall scanner : Scanner,
      (do let _ <- Run.widen .scan (scanner.scan pattern) :
        Run CommandError Unit).Recites CommandError.TellsRefusal := fun scanner =>
    ((scanner.recites_scanReading .inTurn pattern).widen fun _ => .of_scan).bind fun _ =>
      prints (printing_pure ())
  dsimp only
  split
  · exact (prints (printing_writeLine _)).bind fun _ => scans _
  · exact scans _

/-- A command asks for the same whatever the output, and fails for one of four causes if the
output refuses. -/
theorem recites_dispatch (command : ShellCommand) :
    (shell.dispatch pid command).Recites CommandError.TellsRefusal := by
  have prints : forall {part : Run CommandError Unit}, part.Printing ->
      part.Recites CommandError.TellsRefusal := fun printing =>
    printing.recites.mono fun _ => .of_isRefusal
  have ends := prints (printing_pure ())
  cases command with
  | help => exact prints printing_writeHelp
  | listProcesses =>
      exact (shell.machine.recites_listProcesses.widen fun _ => .of_memory).bind fun _ => ends
  | listModules =>
      exact ((shell.machine.recites_listModules pid).widen fun _ => .of_memory).bind fun _ => ends
  | listThreads =>
      exact ((shell.machine.recites_listThreads pid).widen fun _ => .of_memory).bind fun _ => ends
  | heaps listsBlocks entropy =>
      exact ((recites_walkProcessHeaps shell.machine pid listsBlocks entropy).widen
        fun _ => .of_heap).bind fun _ => ends
  | scan pattern => exact shell.recites_scan pid pattern
  | _ => exact ends

/-- A command that is carried out: neither one that only changes the session, nor none. -/
def isCarriedOut : ShellCommand -> Bool
  | .empty => false
  | .quit => false
  | .selectPid _ => false
  | _ => true

/-- A command that is carried out to its end has ended its last line. -/
theorem endsLine_dispatch {command : ShellCommand} (carried : isCarriedOut command = true) :
    (shell.dispatch pid command).EndsLine := by
  cases command with
  | help => exact .after fun _ => .after fun _ => endsLine_writeLine _
  | listProcesses => exact (Run.EndsLine.widen shell.machine.endsLine_listProcesses).made _
  | listModules => exact (Run.EndsLine.widen (shell.machine.endsLine_listModules pid)).made _
  | listThreads => exact (Run.EndsLine.widen (shell.machine.endsLine_listThreads pid)).made _
  | heaps listsBlocks entropy =>
      exact (Run.EndsLine.widen (endsLine_walkProcessHeaps _ _ _ _)).made _
  | scan pattern =>
      refine .after fun opened => .after fun process => ?_
      dsimp only
      split
      · exact .after fun _ => (Run.EndsLine.widen (Scanner.endsLine_scan _ _)).made _
      · exact (Run.EndsLine.widen (Scanner.endsLine_scan _ _)).made _
  | _ => contradiction

end Shell
end MemoryProbe
