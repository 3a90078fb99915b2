import MemoryProbe.Failure
import MemoryProbe.Fault
import MemoryProbe.Text.Number

namespace MemoryProbe

/-!
The kernel's status line of a process or task, and its line about a system
call.  The name in a status line stands between the first opening and the last
closing parenthesis and may hold anything, parentheses and blanks included;
the fields behind it are counted from there.
-/

/-- The fields of a status line that the listings use. -/
structure StatLine where
  pid : UInt32
  name : String
  parentPid : UInt32
  priority : Int
  nice : Int
  threads : UInt32
deriving DecidableEq, Repr

namespace StatLine

/-- The cause of failure of a text that is no status line. -/
def malformed (text : List Char) : MemoryError :=
  .malformed "stat line" (String.ofList (Text.trim text))

/-- The place of the first opening parenthesis. -/
def opening? (text : List Char) : Option Nat :=
  text.findIdx? (· = '(')

/-- The place of the last closing parenthesis. -/
def closing? (text : List Char) : Option Nat :=
  (text.reverse.findIdx? (· = ')')).map fun index => text.length - 1 - index

/-- The part of a text between two places; the first must not come after the
second. -/
def slice (text : List Char) (first past : Nat) : Except Fault (List Char) :=
  if first ≤ past ∧ past ≤ text.length then
    .ok ((text.take past).drop first)
  else
    .error .outOfRange

/-- The field of a number in the manual's count, in which the first field
behind the name is the third. -/
def field? (fields : List (List Char)) (number : Nat) : Option (List Char) :=
  fields[number - 3]?

def ofFields? (pid : UInt32) (name : List Char) (fields : List (List Char)) :
    Option StatLine := do
  let parentPid <- (field? fields 4).bind Text.natural32?
  let priority <- (field? fields 18).bind Text.integer32?
  let nice <- (field? fields 19).bind Text.integer32?
  let threads <- (field? fields 20).bind Text.natural32?
  return {
    pid := pid
    name := String.ofList name
    parentPid := parentPid
    priority := priority
    nice := nice
    threads := threads }

def ofText (text : List Char) : Except (Halt MemoryError) StatLine :=
  let refusal : Halt MemoryError := .failure (malformed text)
  match opening? text, closing? text with
  | some opening, some closing =>
    match Text.natural32? (Text.trim (text.take opening)) with
    | none => .error refusal
    | some pid => do
      let name <- (slice text (opening + 1) closing : Except Fault (List Char))
      let fields := Text.words (text.drop (closing + 1))
      match ofFields? pid name fields with
      | some line => return line
      | none => throw refusal
  | _, _ => .error refusal

end StatLine

/-- The stack pointer in a line about a system call, whose last two fields are
the stack pointer and the program counter.  A running task shows neither. -/
def stackPointer? (text : List Char) : Option Address :=
  let fields := Text.words text
  if fields.length < 3 ∨ fields.head? = some "running".toList then
    none
  else
    (fields[fields.length - 2]?).bind fun field =>
      (Text.word? 16 (Text.dropRepeated '0' 'x' field)).map Address.mk

end MemoryProbe
