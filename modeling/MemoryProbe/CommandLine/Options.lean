import MemoryProbe.ProcessId
import MemoryProbe.Settings.Given

namespace MemoryProbe
namespace CommandLine

/-!
The options of the command line: their spellings, which command takes which,
and the values given at one level.  A level is the program itself or one of its
commands.  Each option may be given once at a level.
-/

inductive CommandName where
  | scan
  | heaps
  | processes
  | modules
  | threads
  | shell
deriving DecidableEq, Repr

namespace CommandName

def all : List CommandName :=
  [.scan, .heaps, .processes, .modules, .threads, .shell]

/-- The spelling of a command. -/
def text : CommandName -> String
  | .scan => "scan"
  | .heaps => "heaps"
  | .processes => "ps"
  | .modules => "modules"
  | .threads => "threads"
  | .shell => "shell"

/-- The command of a spelling. -/
def ofText? (text : String) : Option CommandName :=
  all.find? fun command => command.text == text

end CommandName

inductive OptionName where
  | help
  | version
  | logLevel
  | quiet
  | config
  | memoryLimit
  | maxThreads
  | blockFactor
  | maxResults
  | showFailedReads
  | pid
  | patternText
  | patternHex
  | blocks
  | entropy
deriving DecidableEq, Repr

namespace OptionName

/-- The spelling behind two dashes. -/
def long : OptionName -> String
  | .help => "help"
  | .version => "version"
  | .logLevel => "log-level"
  | .quiet => "quiet"
  | .config => "config"
  | .memoryLimit => "memory-limit"
  | .maxThreads => "threads"
  | .blockFactor => "block-factor"
  | .maxResults => "max-results"
  | .showFailedReads => "show-failed-reads"
  | .pid => "pid"
  | .patternText => "text"
  | .patternHex => "hex"
  | .blocks => "blocks"
  | .entropy => "entropy"

/-- The letter behind one dash, if there is one. -/
def short? : OptionName -> Option Char
  | .help => some 'h'
  | .version => some 'V'
  | .logLevel => some 'l'
  | .quiet => some 'q'
  | .config => some 'c'
  | .pid => some 'p'
  | .patternText => some 't'
  | .patternHex => some 'x'
  | _ => none

def takesValue : OptionName -> Bool
  | .help => false
  | .version => false
  | .quiet => false
  | .showFailedReads => false
  | .blocks => false
  | .entropy => false
  | _ => true

/-- The options that may stand before and behind the command. -/
def everywhere : List OptionName :=
  [.logLevel, .quiet, .config, .memoryLimit, .maxThreads, .blockFactor,
    .maxResults, .showFailedReads, .help]

def ofLevel : Option CommandName -> List OptionName
  | none => .version :: everywhere
  | some .scan => [.pid, .patternText, .patternHex] ++ everywhere
  | some .heaps => [.pid, .blocks, .entropy] ++ everywhere
  | some .modules => .pid :: everywhere
  | some .threads => .pid :: everywhere
  | some .processes => everywhere
  | some .shell => everywhere

/-- The option of a level that a word behind two dashes names. -/
def ofLong? (level : Option CommandName) (word : String) : Option OptionName :=
  (ofLevel level).find? fun name => name.long == word

/-- The option of a level that a letter behind one dash names. -/
def ofShort? (level : Option CommandName) (letter : Char) : Option OptionName :=
  (ofLevel level).find? fun name => name.short? == some letter

end OptionName

/-- Why arguments lead to no invocation: help or the version was asked for, or
they are wrong. -/
inductive ArgumentStop where
  | help
  | version
  | unknownArgument
  | unknownCommand
  /-- An option was given twice at a level, or two options exclude each other. -/
  | conflict
  /-- A value is missing, or empty where it must not be. -/
  | missingValue
  /-- A value is not of the option's kind. -/
  | invalidValue
  /-- A value was given to an option that takes none. -/
  | unwantedValue
  | missingOption
deriving DecidableEq, Repr

/-- The values given at one level. -/
structure GivenOptions where
  logLevel : Option String := none
  quiet : Bool := false
  config : Option String := none
  memoryLimit : Option Word := none
  maxThreads : Option Word := none
  blockFactor : Option Word := none
  maxResults : Option Word := none
  showFailedReads : Bool := false
  pid : Option UInt32 := none
  patternText : Option String := none
  patternHex : Option String := none
  blocks : Bool := false
  entropy : Bool := false
deriving DecidableEq, Repr

namespace GivenOptions

def onceFlag (given : Bool) : Except ArgumentStop Bool :=
  if given then .error .conflict else .ok true

/-- A value of an option that was not given before, read as its kind. -/
def onceValue {Value : Type} (given : Option Value) (value : Option String)
    (read : String -> Except ArgumentStop Value) :
    Except ArgumentStop (Option Value) :=
  match value, given with
  | none, _ => .error .missingValue
  | some _, some _ => .error .conflict
  | some value, none => (read value).map some

def readWord (value : String) : Except ArgumentStop Word :=
  (Text.word? 10 value.toList).elim (.error .invalidValue) .ok

/-- Read a process number. -/
def readPid (value : String) : Except ArgumentStop UInt32 :=
  (ProcessId.ofText? value.toList).elim (.error .invalidValue) .ok

/-- Read a path, which must not be empty. -/
def readPath (value : String) : Except ArgumentStop String :=
  if value.isEmpty then .error .missingValue else .ok value

def accept (given : GivenOptions) (name : OptionName) (value : Option String) :
    Except ArgumentStop GivenOptions := do
  match name with
  | .help => throw .help
  | .version => throw .version
  | .quiet => return { given with quiet := <- onceFlag given.quiet }
  | .showFailedReads =>
    return { given with showFailedReads := <- onceFlag given.showFailedReads }
  | .blocks => return { given with blocks := <- onceFlag given.blocks }
  | .entropy => return { given with entropy := <- onceFlag given.entropy }
  | .logLevel =>
    return { given with logLevel := <- onceValue given.logLevel value .ok }
  | .config =>
    return { given with config := <- onceValue given.config value readPath }
  | .memoryLimit =>
    return { given with memoryLimit := <- onceValue given.memoryLimit value readWord }
  | .maxThreads =>
    return { given with maxThreads := <- onceValue given.maxThreads value readWord }
  | .blockFactor =>
    return { given with blockFactor := <- onceValue given.blockFactor value readWord }
  | .maxResults =>
    return { given with maxResults := <- onceValue given.maxResults value readWord }
  | .pid => return { given with pid := <- onceValue given.pid value readPid }
  | .patternText =>
    return { given with patternText := <- onceValue given.patternText value .ok }
  | .patternHex =>
    return { given with patternHex := <- onceValue given.patternHex value .ok }

/-- The settings that are given, taken together with those of an outer level;
the inner ones count. -/
def tuning (inner outer : GivenOptions) : Tuning where
  memoryLimit := inner.memoryLimit <|> outer.memoryLimit
  maxThreads := inner.maxThreads <|> outer.maxThreads
  blockFactor := inner.blockFactor <|> outer.blockFactor
  maxResults := inner.maxResults <|> outer.maxResults
  showFailedReads :=
    if inner.showFailedReads || outer.showFailedReads then some true else none
  turnsOn := by split <;> decide

end GivenOptions

end CommandLine
end MemoryProbe
