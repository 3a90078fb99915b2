import MemoryProbe.Search.Error
import MemoryProbe.Text.Number
import MemoryProbe.Text.Quoted
import MemoryProbe.Text.Utf8

namespace MemoryProbe

/-!
Byte patterns and their occurrences.  An occurrence is an offset at which the
data goes on with the whole pattern; occurrences may overlap.  The main lemma
is the equation of `occurrences` along the data.
-/

/-- A pattern of at least one byte. -/
structure Pattern where
  bytes : List UInt8
  nonempty : bytes ≠ []
deriving DecidableEq, Repr

namespace Pattern

/-- Make a pattern of some bytes; there has to be one. -/
def ofBytes (bytes : List UInt8) : Except ScanError Pattern :=
  if h : bytes = [] then .error .emptyPattern else .ok ⟨bytes, h⟩

/-- The number of bytes. -/
def length (pattern : Pattern) : Nat :=
  pattern.bytes.length

/-- Collect the occurrences in data that starts at an offset, behind those
found before it. -/
def collect (pattern : Pattern) (offset : Nat) (found : List Nat) :
    List UInt8 -> List Nat
  | [] => found.reverse
  | byte :: rest =>
    let found :=
      if pattern.bytes.isPrefixOf (byte :: rest) then offset :: found else found
    collect pattern (offset + 1) found rest

/-- The offsets of all occurrences, in rising order. -/
def occurrences (pattern : Pattern) (bytes : List UInt8) : List Nat :=
  collect pattern 0 [] bytes

theorem collect_eq_append (pattern : Pattern) (offset : Nat) (found : List Nat)
    (bytes : List UInt8) :
    collect pattern offset found bytes =
      found.reverse ++ collect pattern offset [] bytes := by
  induction bytes generalizing offset found with
  | nil => simp [collect]
  | cons byte rest ih =>
    unfold collect
    split
    · rw [ih, ih (offset + 1) [offset]]
      simp
    · exact ih (offset + 1) found

/-- The bytes of a text, as a pattern. -/
def textBytes (text : String) : List UInt8 :=
  Text.utf8Bytes text.toList

end Pattern

/-- Why a text does not denote bytes in hexadecimal. -/
inductive HexError where
  | empty
  | oddLength
  /-- A byte of the digits, at its index, is no digit. -/
  | invalidDigit (byte : UInt8) (index : Nat)
deriving DecidableEq, Repr

namespace HexError

/-- The printed form, which names the text. -/
def message (text : String) : HexError -> String
  | .empty => "empty hex pattern"
  | .oddLength => "invalid hex pattern '" ++ text ++ "': Odd number of digits"
  | .invalidDigit byte index =>
    "invalid hex pattern '" ++ text ++ "': Invalid character "
      ++ Text.quotedCharacter (Char.ofUInt8 byte) ++ " at position " ++ toString index

end HexError

namespace Pattern

/-- The value of a byte that is a hexadecimal digit. -/
def hexDigit? (byte : UInt8) : Option UInt8 :=
  (Text.digitValue? 16 (Char.ofUInt8 byte)).map UInt8.ofNat

/-- Join digits in pairs; the index is that of the first digit. -/
def joinPairs (index : Nat) : List UInt8 -> Except HexError (List UInt8)
  | high :: low :: rest =>
    match hexDigit? high, hexDigit? low with
    | some upper, some lower =>
      (joinPairs (index + 2) rest).map fun bytes => (upper * 16 + lower) :: bytes
    | none, _ => .error (.invalidDigit high index)
    | some _, none => .error (.invalidDigit low (index + 1))
  | [_] => .error .oddLength
  | [] => .ok []

/-- The digits of a text: its words without their `0x` marks, joined. -/
def hexDigitsOf (text : List Char) : List Char :=
  (Text.words text).flatMap fun word =>
    Text.dropRepeated '0' 'X' (Text.dropRepeated '0' 'x' word)

/-- Bytes from digits, two for each. -/
def decodeHex (digits : List UInt8) : Except HexError (List UInt8) :=
  if digits.length % 2 = 1 then .error .oddLength else joinPairs 0 digits

/-- Read bytes written in hexadecimal with some decoder of digits. -/
def ofHexBy (decode : List UInt8 -> Except HexError (List UInt8))
    (text : List Char) : Except HexError (List UInt8) :=
  let digits := Text.utf8Bytes (hexDigitsOf text)
  if digits.isEmpty then .error .empty else decode digits

/-- Read bytes written in hexadecimal.  White space may stand anywhere between
digits, and each blank-free stretch may start with `0x`. -/
def ofHex (text : List Char) : Except HexError (List UInt8) :=
  ofHexBy decodeHex text

end Pattern

end MemoryProbe
