namespace MemoryProbe
namespace Text

/-!
Numbers with a fixed count of decimal places.  A number is a quotient of
naturals with a sign; it is rounded once, from its exact value, and a value
halfway between two neighbours goes to the even one.  The sign of zero is
written.
-/

/-- The natural nearest to a quotient, the even one of two equally near. -/
def roundDivide (numerator denominator : Nat) : Nat :=
  let quotient := numerator / denominator
  let doubled := 2 * (numerator % denominator)
  if doubled > denominator ∨ (doubled = denominator ∧ quotient % 2 = 1) then
    quotient + 1
  else
    quotient

/-- A quotient of naturals with a sign, which a zero has as well. -/
structure SignedRatio where
  negative : Bool
  numerator : Nat
  denominator : Nat
deriving DecidableEq, Repr

def fixedPlaces (places : Nat) (value : SignedRatio) : String :=
  let scaled := roundDivide (value.numerator * Nat.pow 10 places) value.denominator
  let sign := if value.negative then "-" else ""
  let whole := toString (scaled / Nat.pow 10 places)
  if places = 0 then
    sign ++ whole
  else
    let fraction := Nat.toDigits 10 (scaled % Nat.pow 10 places)
    let padded := List.replicate (places - fraction.length) '0' ++ fraction
    sign ++ whole ++ "." ++ String.ofList padded

/-- The exact value of a binary floating-point number; infinities and
non-numbers have none. -/
def exactValue? (value : Float) : Option SignedRatio :=
  let bits := value.toBits.toNat
  let negative := bits / Nat.pow 2 63 == 1
  let exponent := bits / Nat.pow 2 52 % Nat.pow 2 11
  let fraction := bits % Nat.pow 2 52
  if exponent = 2047 then
    none
  else
    -- Subnormal numbers have the exponent of the least normal ones and no
    -- implicit leading bit.
    let significand := if exponent = 0 then fraction else fraction + Nat.pow 2 52
    let scale := max exponent 1
    if scale ≤ 1075 then
      some ⟨negative, significand, Nat.pow 2 (1075 - scale)⟩
    else
      some ⟨negative, significand * Nat.pow 2 (scale - 1075), 1⟩

/-- Write a floating-point number with the given number of places. -/
def fixedPlacesFloat (places : Nat) (value : Float) : String :=
  match exactValue? value with
  | some ratio => fixedPlaces places ratio
  | none => if value.isNaN then "NaN" else if value < 0 then "-inf" else "inf"

end Text
end MemoryProbe
