import MemoryProbe.Word

namespace MemoryProbe
namespace Word

/-!
Rounding up to a power of two, and the test for one.  Both work on the bits of
the word: below a power of two all bits are ones, and clearing those bits
rounds down.
-/

/-- Exactly one bit is set: clearing the lowest one leaves nothing. -/
def isPowerOfTwo (value : Word) : Bool :=
  value != 0 && value &&& (value - 1) == 0

/-- The least multiple of a power of two that is at least `value`.  The sum of
both arguments is formed on the way, so it has to be a word.  An alignment of
zero or one leaves the value alone. -/
def alignUp (value alignment : Word) : Except Fault Word :=
  if alignment = 0 ∨ alignment = 1 then
    .ok value
  else do
    let raised <- sum value alignment
    return (raised - 1) &&& ~~~(alignment - 1)

end Word
end MemoryProbe
