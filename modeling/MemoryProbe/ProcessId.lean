import MemoryProbe.Text.Number

namespace MemoryProbe

/-!
Process numbers as people write them: decimal, or hexadecimal after `0x`, below
2^32.
-/

namespace ProcessId

/-- The process number that a text denotes. -/
def ofText? (text : List Char) : Option UInt32 :=
  (Text.number? text).bind fun number =>
    if number.toNat < UInt32.size then some number.toUInt32 else none

/-- The message about a text that denotes none. -/
def refusal (text : String) : String :=
  "invalid pid '" ++ text ++ "'"

end ProcessId

end MemoryProbe
