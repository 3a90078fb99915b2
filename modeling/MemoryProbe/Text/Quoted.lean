import MemoryProbe.Text.Hex

namespace MemoryProbe
namespace Text

/-!
Quoted characters and texts, as messages show them.  Characters without a
visible form are written by their code.
-/

/-- Code points without a visible form, as closed intervals in rising order:
controls, blanks other than the space, formatting marks, marks that join the
character before them, and code points for private use. -/
def hiddenRanges : List (Nat × Nat) :=
  [(0x0, 0x1F), (0x7F, 0xA0), (0xAD, 0xAD), (0x300, 0x36F), (0x483, 0x489),
    (0x591, 0x5BD), (0x600, 0x605), (0x610, 0x61A), (0x61C, 0x61C),
    (0x64B, 0x65F), (0x6DD, 0x6DD), (0x1680, 0x1680), (0x180B, 0x180F),
    (0x2000, 0x200F), (0x2028, 0x202F), (0x205F, 0x206F), (0x20D0, 0x20F0),
    (0x3000, 0x3000), (0x302A, 0x302F), (0xE000, 0xF8FF), (0xFE00, 0xFE0F),
    (0xFE20, 0xFE2F), (0xFEFF, 0xFEFF), (0xFFF0, 0xFFFB), (0xFFFE, 0xFFFF),
    (0xE0000, 0x10FFFF)]

def isHidden (character : Char) : Bool :=
  hiddenRanges.any fun range =>
    range.1 ≤ character.toNat && character.toNat ≤ range.2

/-- The mark that starts an escape. -/
def backslash : Char := '\x5c'

def quotedBetween (quote character : Char) : List Char :=
  if character = quote ∨ character = backslash then
    [backslash, character]
  else if character = '\x00' then
    [backslash, '0']
  else if character = '\t' then
    [backslash, 't']
  else if character = '\n' then
    [backslash, 'n']
  else if character = '\r' then
    [backslash, 'r']
  else if isHidden character then
    [backslash, 'u', '\x7b'] ++ hexDigits character.toNat ++ ['\x7d']
  else
    [character]

def quotedCharacter (character : Char) : String :=
  String.ofList (['\x27'] ++ quotedBetween '\x27' character ++ ['\x27'])

def quotedText (text : List Char) : String :=
  String.ofList (['\x22'] ++ text.flatMap (quotedBetween '\x22') ++ ['\x22'])

end Text
end MemoryProbe
