import MemoryProbe.Proofs.Heap.Reciting
import MemoryProbe.Proofs.Search.Reciting

namespace MemoryProbe

/-!
Outputs of limited size.  A run that fits the limit does not notice it.  One that does not
fails because of the output, at the first text that would cross the limit, and what it has
written by then is the beginning of what it writes without a limit.
-/

namespace Sink

/-- Requests to a limited sink are all met within the limit, or the first text that crosses the
limit is refused, and the sink stays as it was but for the count. -/
theorem askAll_of_limited {sink : Sink} {limit : Nat}
    (limits : sink.accepts = (limited limit).accepts)
    (fits : sink.text.utf8ByteSize ≤ limit) (requests : List SinkRequest) :
    (∃ taken : Sink, sink.askAll requests = (true, taken) ∧
      taken.text = sink.text ++ additions requests ∧ taken.text.utf8ByteSize ≤ limit) ∨
    (∃ (full : Sink) (crossing rest : String), sink.askAll requests = (false, full) ∧
      full.accepts = (limited limit).accepts ∧
      sink.text ++ additions requests = full.text ++ (crossing ++ rest) ∧
      full.text.utf8ByteSize ≤ limit ∧ limit < (full.text ++ crossing).utf8ByteSize) := by
  induction requests generalizing sink with
  | nil => exact Or.inl ⟨sink, rfl, String.append_empty.symm, fits⟩
  | cons request rest ih =>
      have bounds : sink.accepts sink.requests sink.text.utf8ByteSize request = true <->
          (sink.text ++ addition request).utf8ByteSize ≤ limit := by
        rw [limits, String.utf8ByteSize_append]
        cases request with
        | write text => exact decide_eq_true_iff
        | flush => exact ⟨fun _ => fits, fun _ => rfl⟩
      rw [additions_cons, <- String.append_assoc]
      by_cases met : sink.accepts sink.requests sink.text.utf8ByteSize request = true
      · rw [askAll_of_met (ask_of_accepts met)]
        exact @ih { sink with
          requests := sink.requests + 1
          text := sink.text ++ addition request } limits (bounds.mp met)
      · refine Or.inr ⟨_, addition request, additions rest,
          askAll_of_refused (ask_of_refuses met) rest, limits, String.append_assoc, fits, ?_⟩
        exact Nat.lt_of_not_le fun within => met (bounds.mpr within)

/-- A text that crosses the limit crosses it in pieces as well: a first piece is refused, and
those before it begin the text. -/
theorem writeAll_of_crossing {sink : Sink} {limit : Nat}
    (limits : sink.accepts = (limited limit).accepts) (fits : sink.text.utf8ByteSize ≤ limit)
    {pieces : List String} (crosses : limit < (sink.text ++ String.join pieces).utf8ByteSize) :
    ∃ (full : Sink) (rest : String), sink.writeAll pieces = (false, full) ∧
      sink.text ++ String.join pieces = full.text ++ rest ∧
      full.text.utf8ByteSize ≤ limit := by
  rw [writeAll_eq]
  rw [<- additions_write] at crosses ⊢
  rcases askAll_of_limited limits fits (pieces.map .write) with
    ⟨taken, -, whole, within⟩ | ⟨full, piece, rest, asked, -, begins, room, -⟩
  · rw [whole] at within
    omega
  · exact ⟨full, piece ++ rest, asked, begins, room⟩

end Sink

/-- What comes of a run within a limit, by what comes of it without one. -/
structure CutsAt {Cause Answer : Type} [OfIoError Cause] (limit : Nat)
    (free bound : Except (Halt Cause) Answer × Trace) : Prop where
  /-- A run that writes no more than the limit does not notice it. -/
  within : free.2.out.text.utf8ByteSize ≤ limit ->
    bound = (free.1, { free.2 with out := bound.2.out }) ∧
      bound.2.out.text = free.2.out.text
  /-- A run that writes more fails because of the output, at a text that crosses the limit.  An
  output that is handed this text in pieces takes those before the one that crosses the limit,
  and what it holds then is the beginning of what is written without a limit, too. -/
  beyond : limit < free.2.out.text.utf8ByteSize ->
    bound.1 = .error (.failure (OfIoError.ofIoError .sinkFull)) ∧
      ∃ crossing rest, free.2.out.text = bound.2.out.text ++ (crossing ++ rest) ∧
        limit < (bound.2.out.text ++ crossing).utf8ByteSize ∧
        forall pieces, String.join pieces = crossing ->
          ∃ (full : Sink) (left : String), bound.2.out.writeAll pieces = (false, full) ∧
            free.2.out.text = full.text ++ left ∧ full.text.utf8ByteSize ≤ limit
  /-- What is written is the beginning of what is written without a limit. -/
  begins : ∃ rest, free.2.out.text = bound.2.out.text ++ rest
  fits : bound.2.out.text.utf8ByteSize ≤ limit

namespace Run

variable {Cause Answer : Type} [OfIoError Cause]

/-- A run that every limit of its output cuts off where it is crossed. -/
def Cuts (part : Run Cause Answer) : Prop :=
  forall (trace : Trace) (limit : Nat),
    CutsAt limit (part { trace with out := Sink.unlimited })
      (part { trace with out := Sink.limited limit })

/-- A run that asks for the same whatever the output is cut off where the limit is crossed. -/
theorem Recites.cuts {part : Run Cause Answer} (recites : part.Recites IsRefusal) :
    part.Cuts := by
  intro trace limit
  rcases recites trace with ⟨requests, outcome, later, asks⟩
  have takes : Sink.unlimited.TakesAll := fun _ _ _ => rfl
  rcases Sink.askAll_of_takesAll takes requests with ⟨all, met, -, written⟩
  have free : part { trace with out := Sink.unlimited } = (outcome, { later with out := all }) := by
    rcases asks Sink.unlimited with ⟨taken, asked, came⟩ | ⟨_, _, _, asked, -, -⟩
    · cases met.symm.trans asked
      exact came
    · cases met.symm.trans asked
  rw [free]
  rcases @Sink.askAll_of_limited (Sink.limited limit) limit rfl (Nat.zero_le _) requests with
    ⟨taken, asked, text, fits⟩ | ⟨full, crossing, rest, asked, limits, text, fits, crosses⟩
  · rcases asks (Sink.limited limit) with ⟨same, again, came⟩ | ⟨_, _, _, again, -, -⟩
    · cases asked.symm.trans again
      have equal : taken.text = all.text := text.trans written.symm
      rw [came]
      refine ⟨fun _ => ⟨rfl, equal⟩, fun more => ?_, ⟨"", ?_⟩, fits⟩
      · change limit < all.text.utf8ByteSize at more
        rw [equal] at fits
        omega
      · rw [String.append_empty]
        exact equal.symm
    · cases asked.symm.trans again
  · rcases asks (Sink.limited limit) with ⟨_, again, -⟩ | ⟨same, cause, stopped, again, cuts, came⟩
    · cases asked.symm.trans again
    · cases asked.symm.trans again
      have longer : all.text = full.text ++ (crossing ++ rest) := written.trans text
      rw [came]
      refine ⟨fun less => ?_, fun _ => ⟨?_, crossing, rest, longer, crosses, ?_⟩,
        ⟨crossing ++ rest, longer⟩, fits⟩
      · change all.text.utf8ByteSize ≤ limit at less
        rw [longer, <- String.append_assoc, String.utf8ByteSize_append] at less
        omega
      · rw [cuts]
      · rintro pieces rfl
        rcases Sink.writeAll_of_crossing limits fits crosses with ⟨taken, left, all, text, room⟩
        refine ⟨taken, left ++ rest, all, ?_, room⟩
        rw [longer, <- String.append_assoc, text, String.append_assoc]

end Run

/-- Scans, whatever the order in which they read, reports, and walks over heaps are cut off
where a limit of their output is crossed: none swallows a refusal, and none goes on behind it. -/
theorem runs_cut_at_limit :
    (forall (scanner : Scanner) (bytes : List UInt8), (scanner.scan bytes).Cuts ∧
      forall order, (scanner.scanReading (scanner.readsIn order) bytes).Cuts) ∧
    (forall (Cause : Type) [OfIoError Cause] (report : MatchReport) (hits : List (List Address)),
      (report.write hits : Run Cause ReportSummary).Cuts) ∧
    (forall walker : HeapWalker, walker.walk.Cuts) ∧
    forall (listing : HeapListing) (listsBlocks : Bool)
      (reader : Option (Except MemoryError Target)), (listing.walk listsBlocks reader).Cuts := by
  refine ⟨fun scanner bytes => ⟨?_, fun order => ?_⟩, fun Cause _ report hits => ?_,
    fun walker => ?_, fun listing listsBlocks reader => ?_⟩
  · rw [scanner.scan_eq_scanReading]
    exact (scanner.recites_scanReading .inTurn bytes).cuts
  · exact (scanner.recites_scanReading order bytes).cuts
  · exact (report.printing_write hits).recites.cuts
  · exact walker.recites_walk.cuts
  · exact (listing.recites_walk listsBlocks reader).cuts

end MemoryProbe
