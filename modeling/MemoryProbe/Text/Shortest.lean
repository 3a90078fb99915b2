import MemoryProbe.Text.FixedPlaces

namespace MemoryProbe
namespace Text

/-!
The shortest decimal of a floating-point number: of all decimals that round to
the number, those on the coarsest decimal grid, and of these the nearest one.
Numbers are held as naturals over a common denominator, so nothing is rounded on
the way.
-/

/-- A decimal number: some digits, and the power of ten they are counted in. -/
structure Decimal where
  digits : Nat
  exponent : Int
deriving DecidableEq, Repr

/-- A positive number with the bounds of what rounds to it, over a common
denominator. -/
structure RoundingInterval where
  low : Nat
  value : Nat
  high : Nat
  denominator : Nat
  /-- Whether the bounds themselves round to the number. -/
  closed : Bool
deriving DecidableEq, Repr

namespace RoundingInterval

/-- The interval of a positive binary number of 53 bits: its significand, its
exponent counted from the least one, and the exponent of the last bit.  At a
power of two the next lower number is nearer than the next higher one. -/
def ofBinary (significand scale : Nat) (lastBit : Int) : RoundingInterval :=
  let below := if significand = Nat.pow 2 52 ∧ 1 < scale then 1 else 2
  let unit := Nat.pow 2 (lastBit - 2).toNat
  { low := (4 * significand - below) * unit
    value := 4 * significand * unit
    high := (4 * significand + 2) * unit
    denominator := Nat.pow 2 (2 - lastBit).toNat
    closed := significand % 2 == 0 }

/-- The interval in units of a power of ten. -/
def inUnits (interval : RoundingInterval) (exponent : Int) : RoundingInterval :=
  let factor := Nat.pow 10 (-exponent).toNat
  { interval with
    low := interval.low * factor
    value := interval.value * factor
    high := interval.high * factor
    denominator := interval.denominator * Nat.pow 10 exponent.toNat }

def admits (interval : RoundingInterval) (units : Nat) : Bool :=
  let place := units * interval.denominator
  (interval.low < place && place < interval.high)
    || (interval.closed && (place == interval.low || place == interval.high))

/-- The whole number of units that rounds to the number, if there is one: the
nearest, and of two equally near the even one. -/
def nearest? (interval : RoundingInterval) : Option Nat :=
  let lower := interval.value / interval.denominator
  match interval.admits lower, interval.admits (lower + 1) with
  | true, true => some (roundDivide interval.value interval.denominator)
  | true, false => some lower
  | false, true => some (lower + 1)
  | false, false => none

/-- Search the decimal grids from a power of ten downwards. -/
def search (interval : RoundingInterval) (exponent : Int) : Nat -> Option Decimal
  | 0 => none
  | steps + 1 =>
    match (interval.inUnits exponent).nearest? with
    | some digits => some ⟨digits, exponent⟩
    | none => search interval (exponent - 1) steps

end RoundingInterval

/-- The power of ten above every floating-point number. -/
def greatestExponent : Int := 309

/-- The number of grids from the coarsest to one on which every floating-point
number has its shortest decimal. -/
def gridCount : Nat := 700

/-- The shortest decimal of the magnitude of a floating-point number that is
neither zero nor infinite. -/
def shortest? (value : Float) : Option Decimal :=
  let bits := value.toBits.toNat
  let exponent := bits / Nat.pow 2 52 % Nat.pow 2 11
  let fraction := bits % Nat.pow 2 52
  let significand := if exponent = 0 then fraction else fraction + Nat.pow 2 52
  let scale := max exponent 1
  if significand = 0 ∨ exponent = 2047 then
    none
  else
    (RoundingInterval.ofBinary significand scale (scale - 1075)).search
      greatestExponent gridCount

end Text
end MemoryProbe
