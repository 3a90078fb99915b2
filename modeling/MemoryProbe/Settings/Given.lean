import MemoryProbe.Settings

namespace MemoryProbe

/-!
Some of the settings.  They lie over other settings, which fill what is not
given.
-/

/-- The settings, in the order in which they are written. -/
inductive SettingName where
  | memoryLimit
  | maxThreads
  | blockFactor
  | maxResults
  | showFailedReads
deriving DecidableEq, Repr

namespace SettingName

def all : List SettingName :=
  [.memoryLimit, .maxThreads, .blockFactor, .maxResults, .showFailedReads]

def text : SettingName -> String
  | .memoryLimit => "memory_limit"
  | .maxThreads => "max_threads"
  | .blockFactor => "block_factor"
  | .maxResults => "max_results"
  | .showFailedReads => "show_failed_reads"

end SettingName

/-- Settings of which some are given. -/
structure GivenSettings where
  memoryLimit : Option Word := none
  maxThreads : Option Word := none
  blockFactor : Option Word := none
  maxResults : Option Word := none
  showFailedReads : Option Bool := none
deriving DecidableEq, Repr, Inhabited

namespace GivenSettings

/-- Fill what is not given from other settings. -/
def applyTo (given : GivenSettings) (defaults : Settings) : Settings where
  memoryLimit := given.memoryLimit.getD defaults.memoryLimit
  maxThreads := given.maxThreads.getD defaults.maxThreads
  blockFactor := given.blockFactor.getD defaults.blockFactor
  maxResults := given.maxResults.getD defaults.maxResults
  showFailedReads := given.showFailedReads.getD defaults.showFailedReads

end GivenSettings

/-- What the command line gives.  The telling of failed reads is turned on by
being named, so it cannot be turned off. -/
structure Tuning extends GivenSettings where
  turnsOn : showFailedReads ≠ some false := by decide
deriving DecidableEq, Repr

end MemoryProbe
