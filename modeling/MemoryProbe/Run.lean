import MemoryProbe.Fault
import MemoryProbe.Failure
import MemoryProbe.Heap.Histogram
import MemoryProbe.Sink

namespace MemoryProbe

/-!
Runs: computations that write output, read foreign memory and may halt.  What a
run has left behind is kept when it halts: the output up to that point, the
diagnostics, the warnings, and the number of reads.
-/

/-- What a run has left behind so far. -/
structure Trace where
  out : Sink := Sink.unlimited
  /-- The receiver of messages about blocks that could not be read. -/
  diagnostics : Sink := Sink.unlimited
  /-- The warnings in the order of their appearance. -/
  warnings : List String := []
  /-- How many reads of foreign memory were asked for. -/
  reads : Nat := 0
  /-- The buffer that successive reads of heap blocks reuse. -/
  buffer : List UInt8 := []
  /-- The bytes of heap blocks that were counted since the last reset. -/
  histogram : Histogram := Histogram.empty

/-- A computation over a trace that may halt. -/
abbrev Run (Cause : Type) := ExceptT (Halt Cause) (StateM Trace)

namespace Run

variable {Cause : Type} {Answer : Type}

/-- Halt with a cause. -/
def fail (cause : Cause) : Run Cause Answer :=
  fun trace => (.error (.failure cause), trace)

def halt (kind : Fault) : Run Cause Answer :=
  fun trace => (.error (.fault kind), trace)

/-- Use an answer that may be a fault. -/
def ofChecked (answer : Except Fault Answer) : Run Cause Answer :=
  fun trace => (answer.mapError Halt.fault, trace)

/-- Use an answer that may be a failure. -/
def ofExcept (answer : Except Cause Answer) : Run Cause Answer :=
  fun trace => (answer.mapError Halt.failure, trace)

/-- Use an answer that may be a failure or a fault. -/
def ofHalting (answer : Except (Halt Cause) Answer) : Run Cause Answer :=
  fun trace => (answer, trace)

/-- Ask the output for something; a refusal is a failure. -/
def request [OfIoError Cause] (wanted : SinkRequest) : Run Cause Unit :=
  fun trace =>
    match trace.out.ask wanted with
    | (true, sink) => (.ok (), { trace with out := sink })
    | (false, sink) =>
      (.error (.failure (OfIoError.ofIoError .sinkFull)), { trace with out := sink })

def write [OfIoError Cause] (text : String) : Run Cause Unit :=
  request (.write text)

def writeLine [OfIoError Cause] (text : String) : Run Cause Unit :=
  write (text ++ "\n")

/-- Ask the output to pass on what it holds. -/
def flush [OfIoError Cause] : Run Cause Unit :=
  request .flush

/-- Keep a warning. -/
def warn (text : String) : Run Cause Unit :=
  fun trace => (.ok (), { trace with warnings := trace.warnings ++ [text] })

def widen {Narrow : Type} (embed : Narrow -> Cause) (part : Run Narrow Answer) :
    Run Cause Answer :=
  fun trace =>
    match part trace with
    | (.ok answer, later) => (.ok answer, later)
    | (.error stop, later) => (.error (stop.mapCause embed), later)

/-- Run a part and keep its failure as an answer; a fault still halts. -/
def attempt {Narrow : Type} (part : Run Narrow Answer) :
    Run Cause (Except Narrow Answer) :=
  fun trace =>
    match part trace with
    | (.ok answer, later) => (.ok (.ok answer), later)
    | (.error (.failure cause), later) => (.ok (.error cause), later)
    | (.error (.fault kind), later) => (.error (.fault kind), later)

end Run

end MemoryProbe
