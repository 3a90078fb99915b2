import MemoryProbe.Search.Pattern

namespace MemoryProbe

/-!
Searching data for a pattern, place by place.  A finder tells the first place of the
pattern in some bytes.  It is asked about the data, then about what follows the first byte
of each place it told, so that places may overlap.  Offsets and lengths are sizes of memory:
a sum that is no word is a fault, and so is a slice that begins behind the end of the data.
-/

namespace Pattern

/-- The first offset, counted on from the one that is given, at which the data goes on with
the pattern. -/
def firstFrom (pattern : Pattern) (offset : Nat) : List UInt8 -> Option Nat
  | [] => none
  | byte :: rest =>
    if pattern.bytes.isPrefixOf (byte :: rest) then
      some offset
    else
      pattern.firstFrom (offset + 1) rest

/-- The first offset at which the data goes on with the pattern. -/
def first? (pattern : Pattern) (bytes : List UInt8) : Option Nat :=
  pattern.firstFrom 0 bytes

end Pattern

/-- A pattern with a finder for it. -/
structure Matcher where
  pattern : Pattern
  find : List UInt8 -> Option Nat

namespace Matcher

def ofPattern (pattern : Pattern) : Matcher :=
  ⟨pattern, pattern.first?⟩

/-- The sum of two sizes; leaving the range of a word is a fault. -/
def sizeSum (left right : Nat) : Except Fault Nat :=
  if left + right < UInt64.size then .ok (left + right) else .error .overflow

/-- The data from a cursor on.  The cursor may stand at the end, but no further. -/
def behind (bytes : List UInt8) (cursor : Nat) : Except Fault (List UInt8) :=
  if cursor ≤ bytes.length then .ok (bytes.drop cursor) else .error .outOfRange

/-- The offset of a place that was found so many bytes behind a cursor, and where the cursor
goes on from: one byte behind the beginning of that place. -/
def pass (cursor hit : Nat) : Except Fault (Nat × Nat) := do
  let offset <- sizeSum cursor hit
  let next <- sizeSum cursor (<- sizeSum hit 1)
  return (offset, next)

/-- One turn of the search from a cursor on: the offset of the next place, and where the
cursor is then.  There is no turn if the pattern is longer than what is left, or not found. -/
def turn (matcher : Matcher) (bytes : List UInt8) (cursor : Nat) :
    Except Fault (Option (Nat × Nat)) := do
  let stop <- sizeSum cursor matcher.pattern.length
  if stop ≤ bytes.length then
    match matcher.find (<- behind bytes cursor) with
    | none => return none
    | some hit => return some (<- pass cursor hit)
  else
    return none

theorem sizeSum_of_lt {left right : Nat} (fits : left + right < UInt64.size) :
    sizeSum left right = .ok (left + right) :=
  if_pos fits

theorem behind_eq_ok_iff {bytes rest : List UInt8} {cursor : Nat} :
    behind bytes cursor = .ok rest <-> cursor ≤ bytes.length ∧ rest = bytes.drop cursor := by
  unfold behind
  by_cases inside : cursor ≤ bytes.length <;> simp [inside, eq_comm]

theorem pass_eq_ok_iff {cursor hit : Nat} {passed : Nat × Nat} :
    pass cursor hit = .ok passed <->
      cursor + (hit + 1) < UInt64.size ∧ passed = (cursor + hit, cursor + (hit + 1)) := by
  unfold pass sizeSum
  by_cases fits : cursor + (hit + 1) < UInt64.size
  · have first : cursor + hit < UInt64.size := by omega
    have second : hit + 1 < UInt64.size := by omega
    simp [fits, first, second, bind, Except.bind, pure, Except.pure, eq_comm]
  · by_cases first : cursor + hit < UInt64.size <;> by_cases second : hit + 1 < UInt64.size <;>
      simp [fits, first, second, bind, Except.bind]

/-- A turn begins inside the data, and leads to the byte behind a place that was found. -/
theorem exists_hit_of_turn {matcher : Matcher} {bytes : List UInt8} {cursor : Nat}
    {passed : Nat × Nat} (turned : matcher.turn bytes cursor = .ok (some passed)) :
    ∃ hit, cursor ≤ bytes.length ∧ matcher.find (bytes.drop cursor) = some hit ∧
      passed = (cursor + hit, cursor + (hit + 1)) := by
  unfold turn at turned
  rcases exists_of_bind_ok turned with ⟨stop, -, reached⟩
  split at reached
  · rcases exists_of_bind_ok reached with ⟨rest, slice, asked⟩
    rcases behind_eq_ok_iff.mp slice with ⟨inside, rfl⟩
    split at asked
    · cases asked
    · rename_i hit found
      rcases exists_of_bind_ok asked with ⟨result, moved, answered⟩
      cases answered
      exact ⟨hit, inside, found, (pass_eq_ok_iff.mp moved).2⟩
  · cases reached

/-- Search on from a cursor, behind the offsets found before. -/
def searchFrom (matcher : Matcher) (bytes : List UInt8) (cursor : Nat) (found : List Nat) :
    Except Fault (List Nat) :=
  match _turned : matcher.turn bytes cursor with
  | .error kind => .error kind
  | .ok none => .ok found.reverse
  | .ok (some (offset, next)) => matcher.searchFrom bytes next (offset :: found)
termination_by bytes.length + 1 - cursor
decreasing_by
  rcases exists_hit_of_turn _turned with ⟨hit, inside, -, same⟩
  cases same
  omega

section SearchFrom

variable {matcher : Matcher} {bytes : List UInt8} {cursor : Nat} {found : List Nat}

theorem searchFrom_of_none (ended : matcher.turn bytes cursor = .ok none) :
    matcher.searchFrom bytes cursor found = .ok found.reverse := by
  rw [searchFrom]
  split <;> simp_all

theorem searchFrom_of_some {offset next : Nat}
    (turned : matcher.turn bytes cursor = .ok (some (offset, next))) :
    matcher.searchFrom bytes cursor found =
      matcher.searchFrom bytes next (offset :: found) := by
  rw [searchFrom]
  split <;> simp_all

end SearchFrom

/-- The offsets of all places of the pattern, in the order in which they are found. -/
def findAll (matcher : Matcher) (bytes : List UInt8) : Except Fault (List Nat) :=
  matcher.searchFrom bytes 0 []

end Matcher

end MemoryProbe
