import MemoryProbe.Text.Quoted
import MemoryProbe.Text.Shortest
import MemoryProbe.Word

namespace MemoryProbe
namespace Json

/-!
What can be wrong with a JSON text, and where.  A flaw knows how many bytes of
the text are left behind its place; the line and the column follow from that.
-/

/-- What was found in place of a wanted value. -/
inductive Found where
  | null
  | flag (value : Bool)
  | natural (value : Word)
  | negative (magnitude : Word)
  /-- A number with a fraction or an exponent, or one outside the range of
  integers. -/
  | real (value : Float)
  | text (content : List Char)
  | list
  | object

namespace Found

/-- The greatest exponent of ten up to which numbers are written without an
exponent. -/
def widestPlain : Int := 16

/-- The digits of a positive decimal, with a point and at least one place, or
with an exponent if the point would be far from the digits. -/
def decimalText (decimal : Text.Decimal) : String :=
  let digits := Nat.toDigits 10 decimal.digits
  let zeros (count : Int) : List Char := List.replicate count.toNat '0'
  let point : Int := digits.length + decimal.exponent
  if 0 ≤ decimal.exponent ∧ point ≤ widestPlain then
    String.ofList (digits ++ zeros decimal.exponent ++ ['.', '0'])
  else if 0 < point ∧ point ≤ widestPlain then
    String.ofList (digits.take point.toNat ++ ['.'] ++ digits.drop point.toNat)
  else if -5 < point ∧ point ≤ 0 then
    String.ofList (['0', '.'] ++ zeros (-point) ++ digits)
  else
    let places := if digits.length = 1 then [] else '.' :: digits.drop 1
    String.ofList (digits.take 1 ++ places ++ ['e']) ++ toString (point - 1)

/-- A floating-point number in the fewest digits. -/
def realText (value : Float) : String :=
  let sign := if value.toBits.toNat / Nat.pow 2 63 = 1 then "-" else ""
  match Text.shortest? value with
  | some decimal => sign ++ decimalText decimal
  | none => sign ++ "0.0"

/-- The printed form. -/
def description : Found -> String
  | .null => "null"
  | .flag value => "boolean `" ++ toString value ++ "`"
  | .natural value => "integer `" ++ toString value.toNat ++ "`"
  | .negative magnitude => "integer `-" ++ toString magnitude.toNat ++ "`"
  | .real value => "floating point `" ++ realText value ++ "`"
  | .text content => "string " ++ Text.quotedText content
  | .list => "sequence"
  | .object => "map"

end Found

/-- What can be wrong. -/
inductive Defect where
  | endOfValue
  | endOfText
  | endOfList
  | endOfObject
  | expectedValue
  | expectedLetter
  | expectedColon
  | expectedListEnd
  | expectedObjectEnd
  | nameNotText
  | trailingComma
  | trailingCharacters
  | invalidNumber
  | numberOutOfRange
  | invalidEscape
  | controlCharacter
  | loneSurrogate
  | unfinishedSurrogate
  /-- A value of another kind than the wanted one. -/
  | wrongKind (found : Found) (wanted : String)
  /-- A value of the wanted kind, but out of its range. -/
  | wrongValue (found : Found) (wanted : String)
  | repeatedName (name : String)

def Defect.text : Defect -> String
  | .endOfValue => "EOF while parsing a value"
  | .endOfText => "EOF while parsing a string"
  | .endOfList => "EOF while parsing a list"
  | .endOfObject => "EOF while parsing an object"
  | .expectedValue => "expected value"
  | .expectedLetter => "expected ident"
  | .expectedColon => "expected `:`"
  | .expectedListEnd => "expected `,` or `]`"
  | .expectedObjectEnd => "expected `,` or `\x7d`"
  | .nameNotText => "key must be a string"
  | .trailingComma => "trailing comma"
  | .trailingCharacters => "trailing characters"
  | .invalidNumber => "invalid number"
  | .numberOutOfRange => "number out of range"
  | .invalidEscape => "invalid escape"
  | .controlCharacter =>
    "control character (\\u0000-\\u001F) found while parsing a string"
  | .loneSurrogate => "lone leading surrogate in hex escape"
  | .unfinishedSurrogate => "unexpected end of hex escape"
  | .wrongKind found wanted =>
    "invalid type: " ++ found.description ++ ", expected " ++ wanted
  | .wrongValue found wanted =>
    "invalid value: " ++ found.description ++ ", expected " ++ wanted
  | .repeatedName name => "duplicate field `" ++ name ++ "`"

/-- A defect at a place. -/
structure Flaw where
  defect : Defect
  /-- The bytes of the text behind the place. -/
  remaining : Nat

def byteLength (text : List Char) : Nat :=
  text.foldl (fun length character => length + character.utf8Size) 0

namespace Flaw

def here (defect : Defect) (rest : List Char) : Flaw :=
  ⟨defect, byteLength rest⟩

/-- A flaw of the byte with which the rest of the text starts; the place is
behind that byte. -/
def ahead (defect : Defect) (rest : List Char) : Flaw :=
  ⟨defect, byteLength rest - 1⟩

/-- Walk over some bytes of a text, counting lines from one and the columns of
the last line from zero. -/
def walk (bytes line column : Nat) : List Char -> Nat × Nat
  | [] => (line, column)
  | character :: rest =>
    if bytes < character.utf8Size then
      (line, column + bytes)
    else if character = '\n' then
      walk (bytes - 1) (line + 1) 0 rest
    else
      walk (bytes - character.utf8Size) line (column + character.utf8Size) rest

def message (text : List Char) (flaw : Flaw) : String :=
  let place := walk (byteLength text - flaw.remaining) 1 0 text
  flaw.defect.text ++ " at line " ++ toString place.1 ++ " column "
    ++ toString place.2

end Flaw

end Json
end MemoryProbe
