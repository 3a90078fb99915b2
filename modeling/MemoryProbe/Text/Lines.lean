import MemoryProbe.Text.Blank

namespace MemoryProbe
namespace Text

/-!
Lines.  A line ends at a line feed, which is not part of it; one carriage
return right before the line feed is not part of it either.  What follows the
last line feed is a line only if it is not empty, and keeps its carriage
return.  The rule is the same for characters and for bytes.
-/

def dropTrailing {α : Type} [DecidableEq α] (mark : α) (line : List α) :
    List α :=
  if line.getLast? = some mark then line.dropLast else line

/-- Finish the pieces between line feeds: all but the last were terminated. -/
def finishLines {α : Type} [DecidableEq α] (carriageReturn : α) :
    List (List α) -> List (List α)
  | [] => []
  | [unterminated] => if unterminated.isEmpty then [] else [unterminated]
  | terminated :: rest =>
    dropTrailing carriageReturn terminated :: finishLines carriageReturn rest

def linesWith {α : Type} [DecidableEq α] (lineFeed carriageReturn : α)
    (sequence : List α) : List (List α) :=
  finishLines carriageReturn
    (pieces (fun element => decide (element = lineFeed)) sequence)

def lines (text : List Char) : List (List Char) :=
  linesWith '\n' '\r' text

def byteLines (bytes : List UInt8) : List (List UInt8) :=
  linesWith 10 13 bytes

end Text
end MemoryProbe
