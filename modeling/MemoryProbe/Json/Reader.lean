import MemoryProbe.Json.Flaw
import MemoryProbe.Text.Number

namespace MemoryProbe
namespace Json

/-!
Reading JSON.  A reader takes a value off the front of a text and answers the
rest.  Values nobody asked for are skipped: they have to be well formed, but
their numbers may be of any size and their escapes may name half a character.
-/

/-- A value with the rest of the text behind it. -/
abbrev Reading (Value : Type) := Except Flaw (Value × List Char)

def isSeparator (character : Char) : Bool :=
  character == ' ' || character == '\t' || character == '\n' || character == '\r'

/-- Drop the separators in front. -/
def skipBlanks (text : List Char) : List Char :=
  text.dropWhile isSeparator

def startsWithDigit (text : List Char) : Bool :=
  text.head?.any Char.isDigit

/-- Drop the digits in front. -/
def skipDigits (text : List Char) : List Char :=
  text.dropWhile Char.isDigit

/-- Take the letters of a word off the front. -/
def skipLetters : (word : List Char) -> List Char -> Except Flaw (List Char)
  | [], text => .ok text
  | _ :: _, [] => .error (.here .endOfValue [])
  | letter :: word, character :: rest =>
    if character = letter then
      skipLetters word rest
    else
      .error (.ahead .expectedLetter (character :: rest))

/-! Numbers that are only skipped. -/

/-- Skip the exponent of a number behind its mark. -/
def skipExponent (text : List Char) : Except Flaw (List Char) :=
  let unsigned :=
    match text with
    | '+' :: rest => rest
    | '-' :: rest => rest
    | rest => rest
  if startsWithDigit unsigned then
    .ok (skipDigits unsigned)
  else
    .error (.ahead .invalidNumber unsigned)

def skipOptionalExponent (text : List Char) : Except Flaw (List Char) :=
  match text with
  | 'e' :: rest => skipExponent rest
  | 'E' :: rest => skipExponent rest
  | rest => .ok rest

/-- Skip what may follow the whole part of a number. -/
def skipFraction (text : List Char) : Except Flaw (List Char) :=
  match text with
  | '.' :: rest =>
    if startsWithDigit rest then
      skipOptionalExponent (skipDigits rest)
    else
      .error (.ahead .invalidNumber rest)
  | rest => skipOptionalExponent rest

/-- Skip an unsigned number.  Its whole part starts with zero only if it is
zero. -/
def skipNumber (text : List Char) : Except Flaw (List Char) :=
  match text with
  | '0' :: rest =>
    if startsWithDigit rest then
      .error (.ahead .invalidNumber rest)
    else
      skipFraction rest
  | rest =>
    if startsWithDigit rest then
      skipFraction (skipDigits rest)
    else
      .error (.ahead .invalidNumber rest)

/-! Texts. -/

def escaped? (letter : Char) : Option Char :=
  match letter with
  | '\x22' => some '\x22'
  | '\x5c' => some '\x5c'
  | '/' => some '/'
  | 'b' => some '\x08'
  | 'f' => some '\x0c'
  | 'n' => some '\n'
  | 'r' => some '\r'
  | 't' => some '\t'
  | _ => none

/-- The value of the four digits of a numeric escape. -/
def codeUnit? (first second third fourth : Char) : Option Nat :=
  [first, second, third, fourth].foldlM
    (fun value digit =>
      (Text.digitValue? 16 digit).map fun low => value * 16 + low)
    0

/-- The flaw of a numeric escape whose digits should start here: it takes four
bytes whatever they are. -/
def escapeFlaw (text : List Char) : Flaw :=
  if 4 ≤ byteLength text then
    ⟨.invalidEscape, byteLength text - 4⟩
  else
    ⟨.endOfText, 0⟩

/-- Whether a code unit is the first half of a character. -/
def isLeading (unit : Nat) : Bool :=
  0xD800 ≤ unit && unit ≤ 0xDBFF

/-- Whether a code unit is the second half of a character. -/
def isTrailing (unit : Nat) : Bool :=
  0xDC00 ≤ unit && unit ≤ 0xDFFF

def joinHalves (leading trailing : Nat) : Char :=
  Char.ofNat (0x10000 + (leading - 0xD800) * 0x400 + (trailing - 0xDC00))

def prepend (character : Char) (reading : Reading (List Char)) :
    Reading (List Char) :=
  reading.map fun taken => (character :: taken.1, taken.2)

/-- Read a text behind its opening quote.  Escapes have to name whole
characters. -/
def readText : List Char -> Reading (List Char)
  | [] => .error (.here .endOfText [])
  | '\x22' :: rest => .ok ([], rest)
  | '\x5c' :: 'u' :: first :: second :: third :: fourth :: rest =>
    match codeUnit? first second third fourth with
    | none => .error (escapeFlaw (first :: second :: third :: fourth :: rest))
    | some unit =>
      if isTrailing unit then
        .error (.here .loneSurrogate rest)
      else if !isLeading unit then
        prepend (Char.ofNat unit) (readText rest)
      else
        match rest with
        | '\x5c' :: 'u' :: first :: second :: third :: fourth :: rest =>
          match codeUnit? first second third fourth with
          | none => .error (escapeFlaw (first :: second :: third :: fourth :: rest))
          | some trailing =>
            if isTrailing trailing then
              prepend (joinHalves unit trailing) (readText rest)
            else
              .error (.here .loneSurrogate rest)
        | '\x5c' :: 'u' :: short => .error (escapeFlaw short)
        | ['\x5c'] => .error (.here .endOfText [])
        | '\x5c' :: other => .error (.ahead .unfinishedSurrogate other)
        | [] => .error (.here .endOfText [])
        | other => .error (.ahead .unfinishedSurrogate other)
  | '\x5c' :: 'u' :: short => .error (escapeFlaw short)
  | ['\x5c'] => .error (.here .endOfText [])
  | '\x5c' :: letter :: rest =>
    match escaped? letter with
    | some character => prepend character (readText rest)
    | none => .error (.ahead .invalidEscape (letter :: rest))
  | character :: rest =>
    if character < ' ' then
      .error (.here .controlCharacter rest)
    else
      prepend character (readText rest)

/-- Skip a text behind its opening quote. -/
def skipText : List Char -> Except Flaw (List Char)
  | [] => .error (.here .endOfText [])
  | '\x22' :: rest => .ok rest
  | '\x5c' :: 'u' :: first :: second :: third :: fourth :: rest =>
    match codeUnit? first second third fourth with
    | none => .error (escapeFlaw (first :: second :: third :: fourth :: rest))
    | some _ => skipText rest
  | '\x5c' :: 'u' :: short => .error (escapeFlaw short)
  | ['\x5c'] => .error (.here .endOfText [])
  | '\x5c' :: letter :: rest =>
    match escaped? letter with
    | some _ => skipText rest
    | none => .error (.ahead .invalidEscape (letter :: rest))
  | character :: rest =>
    if character < ' ' then
      .error (.here .controlCharacter (character :: rest))
    else
      skipText rest

/-! Values that are only skipped.  Each second step takes a character, so twice
the length of the text bounds the steps. -/

/-- Take a colon off the front. -/
def skipColon (text : List Char) : Except Flaw (List Char) :=
  match skipBlanks text with
  | ':' :: rest => .ok rest
  | [] => .error (.ahead .endOfObject [])
  | rest => .error (.ahead .expectedColon rest)

mutual

def skipValueWithin : (steps : Nat) -> List Char -> Except Flaw (List Char)
  | 0, text => .error (.here .endOfValue text)
  | steps + 1, text =>
    match skipBlanks text with
    | [] => .error (.ahead .endOfValue [])
    | 'n' :: rest => skipLetters ['u', 'l', 'l'] rest
    | 't' :: rest => skipLetters ['r', 'u', 'e'] rest
    | 'f' :: rest => skipLetters ['a', 'l', 's', 'e'] rest
    | '-' :: rest => skipNumber rest
    | '\x22' :: rest => skipText rest
    | '[' :: rest =>
      match skipBlanks rest with
      | [] => .error (.ahead .endOfList [])
      | ']' :: rest => .ok rest
      | rest => skipElements steps rest
    | '\x7b' :: rest =>
      match skipBlanks rest with
      | [] => .error (.ahead .endOfObject [])
      | '\x7d' :: rest => .ok rest
      | rest => skipMembers steps rest
    | rest =>
      if startsWithDigit rest then
        skipNumber rest
      else
        .error (.ahead .expectedValue rest)

/-- Skip the elements of a list, of which there is at least one. -/
def skipElements : (steps : Nat) -> List Char -> Except Flaw (List Char)
  | 0, text => .error (.here .endOfValue text)
  | steps + 1, text => do
    let rest <- skipValueWithin steps text
    match skipBlanks rest with
    | ',' :: rest => skipElements steps rest
    | ']' :: rest => return rest
    | [] => throw (.ahead .endOfList [])
    | rest => throw (.ahead .expectedListEnd rest)

/-- Skip the members of an object, of which there is at least one. -/
def skipMembers : (steps : Nat) -> List Char -> Except Flaw (List Char)
  | 0, text => .error (.here .endOfValue text)
  | steps + 1, text =>
    match skipBlanks text with
    | '\x22' :: rest => do
      let rest <- skipText rest
      let rest <- skipColon rest
      let rest <- skipValueWithin steps rest
      match skipBlanks rest with
      | ',' :: rest => skipMembers steps rest
      | '\x7d' :: rest => return rest
      | [] => throw (.ahead .endOfObject [])
      | rest => throw (.ahead .expectedObjectEnd rest)
    | [] => .error (.ahead .endOfObject [])
    | rest => .error (.ahead .nameNotText rest)

end

def skipValue (text : List Char) : Except Flaw (List Char) :=
  skipValueWithin (2 * text.length + 2) text

/-! Values of a wanted kind. -/

def powerOfTen (exponent : Nat) : Float :=
  Float.ofScientific 1 false exponent

/-- Scale a floating-point number by a power of ten, rounding at each step; the
result has to be finite.  Powers beyond the greatest one take several steps. -/
def scale (value : Float) (exponent : Int) : Nat -> Option Float
  | 0 => some value
  | steps + 1 =>
    if 0 ≤ exponent then
      if exponent ≤ 308 then
        let scaled := value * powerOfTen exponent.toNat
        if scaled.isInf then none else some scaled
      else if value == 0.0 then
        some value
      else
        none
    else if -308 ≤ exponent then
      some (value / powerOfTen exponent.natAbs)
    else if value == 0.0 then
      some value
    else
      scale (value / powerOfTen 308) (exponent + 308) steps

/-- The digits that are kept while their value is a word, their value, and how
many were left out. -/
def keepDigits (value : Nat) : List Char -> Nat × Nat
  | [] => (value, 0)
  | digit :: rest =>
    let longer := value * 10 + (digit.toNat - '0'.toNat)
    if longer < UInt64.size then
      keepDigits longer rest
    else
      (value, rest.length + 1)

/-- A floating-point number of some digits and a power of ten. -/
def realOf (negative : Bool) (digits : Nat) (exponent : Int) (rest : List Char) :
    Reading Found :=
  let steps := exponent.natAbs + 1
  match scale (UInt64.ofNat digits).toFloat exponent steps with
  | some value => .ok (.real (if negative then -value else value), rest)
  | none => .error (.here .numberOutOfRange rest)

/-- Read what may stand behind the digits of a number as an exponent. -/
def readExponent (negative : Bool) (digits : Nat) (exponent : Int)
    (text : List Char) : Reading Found :=
  let stated (sign : Int) (rest : List Char) : Reading Found :=
    match rest with
    | [] => .error (.here .endOfValue [])
    | _ =>
      if startsWithDigit rest then
        let shown := rest.takeWhile Char.isDigit
        let behind := skipDigits rest
        match Text.digitsValue? 10 shown with
        | none => .error (.ahead .invalidNumber rest)
        | some power => realOf negative digits (exponent + sign * power) behind
      else
        .error (.ahead .invalidNumber rest)
  match text with
  | '+' :: rest => stated 1 rest
  | '-' :: rest => stated (-1) rest
  | rest => stated 1 rest

/-- Read what may stand behind the whole part of a number as a fraction. -/
def readFraction (negative : Bool) (digits : Nat) (exponent : Int)
    (text : List Char) : Reading Found :=
  let shown := text.takeWhile Char.isDigit
  let behind := skipDigits text
  if shown.isEmpty then
    match text with
    | [] => .error (.ahead .endOfValue [])
    | _ => .error (.ahead .invalidNumber text)
  else
    let (kept, left) := keepDigits digits shown
    let exponent := exponent - ((shown.length : Int) - left)
    match behind with
    | 'e' :: rest => readExponent negative kept exponent rest
    | 'E' :: rest => readExponent negative kept exponent rest
    | rest => realOf negative kept exponent rest

/-- Read a number behind its sign. -/
def readNumber (negative : Bool) (text : List Char) : Reading Found :=
  match text with
  | [] => .error (.here .endOfValue [])
  | first :: second =>
    if !first.isDigit then
      .error (.ahead .invalidNumber text)
    else if first = '0' ∧ startsWithDigit second then
      .error (.ahead .invalidNumber second)
    else
      let (kept, left) := keepDigits 0 (text.takeWhile Char.isDigit)
      match skipDigits text with
      | '.' :: rest => readFraction negative kept left rest
      | 'e' :: rest => readExponent negative kept left rest
      | 'E' :: rest => readExponent negative kept left rest
      | rest =>
        if left ≠ 0 then
          realOf negative kept left rest
        else if !negative then
          .ok (.natural (UInt64.ofNat kept), rest)
        else if kept = 0 ∨ Nat.pow 2 63 < kept then
          .ok (.real (-(UInt64.ofNat kept).toFloat), rest)
        else
          .ok (.negative (UInt64.ofNat kept), rest)

/-- Find out what a value is that should be of another kind.  Of lists and
objects only the start is looked at. -/
def readOther (text : List Char) : Reading Found :=
  match text with
  | 'n' :: rest => (skipLetters ['u', 'l', 'l'] rest).map fun rest => (.null, rest)
  | 't' :: rest =>
    (skipLetters ['r', 'u', 'e'] rest).map fun rest => (.flag true, rest)
  | 'f' :: rest =>
    (skipLetters ['a', 'l', 's', 'e'] rest).map fun rest => (.flag false, rest)
  | '-' :: rest => readNumber true rest
  | '\x22' :: rest => (readText rest).map fun taken => (.text taken.1, taken.2)
  | '[' :: _ => .ok (.list, text)
  | '\x7b' :: _ => .ok (.object, text)
  | _ =>
    if startsWithDigit text then
      readNumber false text
    else
      .error (.ahead .expectedValue text)

def wrongKind (wanted : String) (text : List Char) : Flaw :=
  match readOther text with
  | .ok (found, rest) => .here (.wrongKind found wanted) rest
  | .error flaw => flaw

/-- Read an unsigned 64-bit number.  It is written in digits only. -/
def readWord (wanted : String) (text : List Char) : Reading Word :=
  let accept : Reading Found -> Reading Word
    | .ok (.natural value, rest) => .ok (value, rest)
    | .ok (.negative magnitude, rest) =>
      .error (.here (.wrongValue (.negative magnitude) wanted) rest)
    | .ok (found, rest) => .error (.here (.wrongKind found wanted) rest)
    | .error flaw => .error flaw
  match skipBlanks text with
  | [] => .error (.ahead .endOfValue [])
  | '-' :: rest => accept (readNumber true rest)
  | rest =>
    if startsWithDigit rest then
      accept (readNumber false rest)
    else
      .error (wrongKind wanted rest)

/-- Read a truth value. -/
def readFlag (wanted : String) (text : List Char) : Reading Bool :=
  match skipBlanks text with
  | [] => .error (.ahead .endOfValue [])
  | 't' :: rest => (skipLetters ['r', 'u', 'e'] rest).map fun rest => (true, rest)
  | 'f' :: rest =>
    (skipLetters ['a', 'l', 's', 'e'] rest).map fun rest => (false, rest)
  | rest => .error (wrongKind wanted rest)

end Json
end MemoryProbe
