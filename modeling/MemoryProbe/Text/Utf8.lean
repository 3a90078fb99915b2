namespace MemoryProbe
namespace Text

/-!
UTF-8.  Decoding is strict: every code point has its shortest form, and
surrogates and values above the last code point are refused.  One wrong byte
makes the whole sequence no text.
-/

def utf8Bytes (text : List Char) : List UInt8 :=
  text.flatMap String.utf8EncodeChar

/-- The six payload bits of a continuation byte. -/
def continuation? (byte : UInt8) : Option Nat :=
  if 0x80 ≤ byte ∧ byte < 0xC0 then some (byte.toNat - 0x80) else none

/-- The character of a code point that needs its bytes: it is at least
`least`, and it is a Unicode scalar value. -/
def scalar? (least codePoint : Nat) : Option Char :=
  if h : least ≤ codePoint ∧ codePoint.isValidChar then
    some (Char.ofNatAux codePoint h.2)
  else
    none

/-- Decode a byte sequence, or refuse it. -/
def utf8Decode? : List UInt8 -> Option (List Char)
  | [] => some []
  | first :: rest =>
    if first < 0x80 then
      (utf8Decode? rest).map (Char.ofUInt8 first :: ·)
    else
      match rest with
      | [] => none
      | second :: rest =>
        if first < 0xE0 then do
          let low <- continuation? second
          let character <- scalar? 0x80 ((first.toNat - 0xC0) * 0x40 + low)
          (utf8Decode? rest).map (character :: ·)
        else
          match rest with
          | [] => none
          | third :: rest =>
            if first < 0xF0 then do
              let middle <- continuation? second
              let low <- continuation? third
              let character <-
                scalar? 0x800 ((first.toNat - 0xE0) * 0x1000 + middle * 0x40 + low)
              (utf8Decode? rest).map (character :: ·)
            else
              match rest with
              | [] => none
              | fourth :: rest => do
                let high <- continuation? second
                let middle <- continuation? third
                let low <- continuation? fourth
                let character <-
                  scalar? 0x10000
                    ((first.toNat - 0xF0) * 0x40000 + high * 0x1000 + middle * 0x40 + low)
                (utf8Decode? rest).map (character :: ·)

end Text
end MemoryProbe
