import MemoryProbe.Search.Report

namespace MemoryProbe

/-!
Messages about blocks that were not read in full.  They go to a receiver of
their own, and its refusals are passed over: a scan never depends on whether
its diagnostics arrive.
-/

/-- Why a block was skipped. -/
inductive ReadFailure where
  /-- Nothing was copied. -/
  | failed (code : Option Int)
  /-- Some bytes were copied. -/
  | short (read requested : Word)
deriving DecidableEq, Repr

namespace ReadFailure

/-- The message about a failure, below the head of the region.  More bytes read
than requested is a fault. -/
def text : ReadFailure -> Except Fault String
  | .failed (some code) =>
    .ok ("Failed reading process memory. Error code: " ++ toString code ++ "\n\n")
  | .failed none => .ok "Failed reading process memory.\n\n"
  | .short read requested => do
    let skipped <- Word.difference requested read
    return "Process memory not read in its entirety! 0x" ++ Text.hex skipped.toNat
      ++ " bytes skipped out of 0x" ++ Text.hex requested.toNat ++ "\n\n"

/-- Tell about a skipped block.  Writing stops at the first refusal. -/
def tell {Cause : Type} (failure : ReadFailure) (region : Region)
    (moduleName : Option String) : Run Cause Unit :=
  fun trace =>
    match trace.diagnostics.writeAll (region.header moduleName) with
    | (false, sink) => (.ok (), { trace with diagnostics := sink })
    | (true, sink) =>
      match failure.text with
      | .error kind => (.error (.fault kind), { trace with diagnostics := sink })
      | .ok text =>
        match sink.ask (.write text) with
        | (false, sink) => (.ok (), { trace with diagnostics := sink })
        | (true, sink) =>
          (.ok (), { trace with diagnostics := (sink.ask .flush).2 })

end ReadFailure

end MemoryProbe
