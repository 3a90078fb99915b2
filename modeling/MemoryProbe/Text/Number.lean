import MemoryProbe.Word
import MemoryProbe.Text.Blank
import MemoryProbe.Text.Hex

namespace MemoryProbe
namespace Text

/-!
Numbers read from text.  A digit string has at least one digit and nothing
else; its value is formed in unbounded arithmetic and only then compared with
the range of the type, so leading zeros never matter.  A plus sign may stand in
front of any number, a minus sign only in front of a signed one.
-/

/-- Append one digit to the value read so far. -/
def appendDigit? (radix : Nat) (value : Nat) (character : Char) : Option Nat :=
  (digitValue? radix character).map fun digit => value * radix + digit

/-- The value of a non-empty string of digits. -/
def digitsValue? (radix : Nat) (digits : List Char) : Option Nat :=
  if digits.isEmpty then none else digits.foldlM (appendDigit? radix) 0

def dropPlus : List Char -> List Char
  | '+' :: digits => digits
  | digits => digits

def unsigned? (bound radix : Nat) (text : List Char) : Option Nat :=
  (digitsValue? radix (dropPlus text)).filter fun value => value < bound

/-- An unsigned 64-bit number. -/
def word? (radix : Nat) (text : List Char) : Option Word :=
  (unsigned? UInt64.size radix text).map UInt64.ofNat

/-- An unsigned 32-bit number in decimal. -/
def natural32? (text : List Char) : Option UInt32 :=
  (unsigned? UInt32.size 10 text).map UInt32.ofNat

/-- A signed 32-bit number in decimal. -/
def integer32? (text : List Char) : Option Int :=
  let value :=
    match text with
    | '-' :: digits => (digitsValue? 10 digits).map fun value => -(value : Int)
    | _ => (digitsValue? 10 (dropPlus text)).map fun value => (value : Int)
  value.filter fun value => -2147483648 ≤ value ∧ value ≤ 2147483647

/-- A 64-bit number in decimal, or in hexadecimal after `0x`; blanks around it
do not count. -/
def number? (text : List Char) : Option Word :=
  match trim text with
  | '0' :: 'x' :: digits => word? 16 digits
  | '0' :: 'X' :: digits => word? 16 digits
  | digits => word? 10 digits

end Text
end MemoryProbe
