import MemoryProbe.CommandLine.Arguments
import MemoryProbe.Search.Pattern
import MemoryProbe.Settings.Document

namespace MemoryProbe
namespace CommandLine

/-!
Invocations: what the arguments of the program ask for.  Most options may stand
before or behind the command; where one stands in both places, the one behind
counts.
-/

/-- The pattern of a scan, as it was given. -/
structure PatternSource where
  text : Option String := none
  hex : Option String := none
deriving DecidableEq, Repr

/-- Why a pattern source gives no bytes. -/
inductive PatternError where
  | missing
  | invalidHex (text : String) (cause : HexError)
deriving DecidableEq, Repr

def PatternError.message : PatternError -> String
  | .missing => "Either --text or --hex must be specified"
  | .invalidHex text cause => cause.message text

/-- The bytes to search for.  A text counts before digits. -/
def PatternSource.bytes (source : PatternSource) :
    Except PatternError (List UInt8) :=
  match source.text, source.hex with
  | some text, _ => .ok (Pattern.textBytes text)
  | none, some hex => (Pattern.ofHex hex.toList).mapError (.invalidHex hex)
  | none, none => .error .missing

/-- What the program is asked to do. -/
inductive Request where
  | scan (pid : UInt32) (source : PatternSource)
  | heaps (pid : UInt32) (listsBlocks entropy : Bool)
  | processes
  | modules (pid : UInt32)
  | threads (pid : UInt32)
  | shell
deriving DecidableEq, Repr

/-- What the arguments say. -/
structure Invocation where
  request : Option Request := none
  logLevel : String := "warn"
  quiet : Bool := false
  /-- The path of a settings file. -/
  config : Option String := none
  tuning : Tuning := {}
deriving DecidableEq, Repr

/-- A value that has to be given. -/
def required {Value : Type} (value : Option Value) : Except ArgumentStop Value :=
  value.elim (.error .missingOption) .ok

/-- The request of a command, from the options given behind it. -/
def requestOf (command : CommandName) (given : GivenOptions) :
    Except ArgumentStop Request := do
  match command with
  | .scan =>
    if given.patternText.isSome && given.patternHex.isSome then
      throw .conflict
    let pid <- required given.pid
    if given.patternText.isNone && given.patternHex.isNone then
      throw .missingOption
    return .scan pid { text := given.patternText, hex := given.patternHex }
  | .heaps => return .heaps (<- required given.pid) given.blocks given.entropy
  | .processes => return .processes
  | .modules => return .modules (<- required given.pid)
  | .threads => return .threads (<- required given.pid)
  | .shell => return .shell

def readCommand (command : CommandName) (arguments : List String) :
    Except ArgumentStop (GivenOptions × Request) := do
  let level <- readLevel (some command) {} arguments
  let given <- level.state.resolve
  return (given, <- requestOf command given)

/-- An invocation of the options at both levels. -/
def invocation (request : Option Request) (inner outer : GivenOptions) :
    Invocation where
  request := request
  logLevel := (inner.logLevel <|> outer.logLevel).getD "warn"
  quiet := inner.quiet || outer.quiet
  config := inner.config <|> outer.config
  tuning := inner.tuning outer

/-- Read the arguments of the program.  The arguments behind a command are
judged before a value that is still to be read in front of it. -/
def read (arguments : List String) : Except ArgumentStop Invocation := do
  let level <- readLevel none {} arguments
  match level.command with
  | none => return invocation none {} (<- level.state.resolve)
  | some (command, rest) =>
    let (inner, request) <- readCommand command rest
    return invocation (some request) inner (<- level.state.resolve)

/-- The settings of an invocation: the options over the settings file over the
defaults.  What the file gives is judged before the options lie over it. -/
def Invocation.settingsIn (format : SettingsFormat) (invocation : Invocation)
    (defaults : Settings) (readFile : String -> Except IoError (List UInt8)) :
    Except SettingsError Settings := do
  let base <-
    match invocation.config with
    | some path => Settings.load format defaults (readFile path)
    | none => pure defaults
  let settings := invocation.tuning.applyTo base
  settings.validate
  return settings

/-- The settings of an invocation whose settings file is written as JSON. -/
def Invocation.settings (invocation : Invocation) (defaults : Settings)
    (readFile : String -> Except IoError (List UInt8)) :
    Except SettingsError Settings :=
  invocation.settingsIn .json defaults readFile

end CommandLine
end MemoryProbe
