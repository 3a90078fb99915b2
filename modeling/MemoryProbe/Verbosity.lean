import MemoryProbe.Text.Blank

namespace MemoryProbe

/-!
How much a program tells about its own work.
-/

/-- The levels of telling, from nothing to everything. -/
inductive Verbosity where
  | off
  | error
  | warn
  | info
  | debug
  | trace
deriving DecidableEq, Repr, Inhabited

namespace Verbosity

/-- The name of a level. -/
def name : Verbosity -> String
  | .off => "OFF"
  | .error => "ERROR"
  | .warn => "WARN"
  | .info => "INFO"
  | .debug => "DEBUG"
  | .trace => "TRACE"

/-- The level that a text names, in letters of either case.  The text of no
level names the middle one. -/
def ofText (text : String) : Verbosity :=
  match String.ofList (text.toList.map Char.toLower) with
  | "off" => .off
  | "error" => .error
  | "warn" => .warn
  | "warning" => .warn
  | "debug" => .debug
  | "trace" => .trace
  | _ => .info

end Verbosity

end MemoryProbe
