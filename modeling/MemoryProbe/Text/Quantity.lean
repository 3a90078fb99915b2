import MemoryProbe.Word
import MemoryProbe.Text.FixedPlaces

namespace MemoryProbe
namespace Text

/-!
Byte counts and durations for people to read.  Both pick the largest unit that
the amount reaches.  Amounts in a unit are floating-point quotients, rounded to
their places only when written.
-/

/-- A byte count in the largest unit of 1024 steps that it reaches, with two
places; below one kilobyte the bytes themselves. -/
def byteCount (bytes : Word) : String :=
  let inUnit (power : Nat) (unit : String) : String :=
    fixedPlacesFloat 2 (bytes.toFloat / (Nat.pow 1024 power).toFloat) ++ " " ++ unit
  if bytes.toNat ≥ Nat.pow 1024 3 then
    inUnit 3 "GB"
  else if bytes.toNat ≥ Nat.pow 1024 2 then
    inUnit 2 "MB"
  else if bytes.toNat ≥ 1024 then
    inUnit 1 "KB"
  else
    toString bytes.toNat ++ " bytes"

/-- The remainder of a floating-point number by a natural, in exact
arithmetic. -/
def exactRemainder (value : Float) (modulus : Nat) : SignedRatio :=
  match exactValue? value with
  | some ratio =>
    { ratio with numerator := ratio.numerator % (modulus * ratio.denominator) }
  | none => ⟨false, 0, 1⟩

/-- A duration of whole seconds and a fraction in nanoseconds.  Below one
millisecond it is given in whole microseconds, below one second in whole
milliseconds, below one minute in seconds with two places, and from then on in
whole minutes and seconds with one place. -/
def shortDuration (seconds : Word) (fraction : Nat) : String :=
  let total := seconds.toFloat + fraction.toFloat / 1000000000.0
  let wholeNanoseconds := seconds.toNat * 1000000000 + fraction
  if total < 0.001 then
    toString (wholeNanoseconds / 1000) ++ "µs"
  else if total < 1.0 then
    toString (wholeNanoseconds / 1000000) ++ "ms"
  else if total < 60.0 then
    fixedPlacesFloat 2 total ++ "s"
  else
    fixedPlacesFloat 0 (total / 60.0).floor ++ "m "
      ++ fixedPlaces 1 (exactRemainder total 60) ++ "s"

/-- A duration of seconds and nanoseconds; a full second of nanoseconds is
carried over. -/
def duration (seconds : Word) (nanoseconds : UInt32) : Except Fault String := do
  let carried := UInt64.ofNat (nanoseconds.toNat / 1000000000)
  let total <- Word.sum seconds carried
  return shortDuration total (nanoseconds.toNat % 1000000000)

end Text
end MemoryProbe
