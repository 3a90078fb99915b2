namespace MemoryProbe
namespace Text

/-!
Hexadecimal digits.  A number is written without leading zeros, or padded with
zeros to a given width; wider numbers are written in full.
-/

/-- The lower-case digits of a number. -/
def hexDigits (value : Nat) : List Char :=
  Nat.toDigits 16 value

def padZeros (width : Nat) (digits : List Char) : List Char :=
  List.replicate (width - digits.length) '0' ++ digits

/-- Lower-case hexadecimal. -/
def hex (value : Nat) : String :=
  String.ofList (hexDigits value)

/-- Lower-case hexadecimal of at least `width` digits. -/
def paddedHex (width value : Nat) : String :=
  String.ofList (padZeros width (hexDigits value))

/-- Upper-case hexadecimal of at least `width` digits. -/
def paddedUpperHex (width value : Nat) : String :=
  String.ofList (padZeros width ((hexDigits value).map Char.toUpper))

/-- The value of a digit in a radix of at most 36; letters count in either
case. -/
def digitValue? (radix : Nat) (character : Char) : Option Nat :=
  let value :=
    if '0' ≤ character ∧ character ≤ '9' then
      some (character.toNat - '0'.toNat)
    else if 'a' ≤ character ∧ character ≤ 'z' then
      some (character.toNat - 'a'.toNat + 10)
    else if 'A' ≤ character ∧ character ≤ 'Z' then
      some (character.toNat - 'A'.toNat + 10)
    else
      none
  value.filter fun digit => digit < radix

end Text
end MemoryProbe
