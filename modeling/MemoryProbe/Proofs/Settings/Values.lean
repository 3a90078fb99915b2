import Mathlib.Logic.Function.Basic
import MemoryProbe.Proofs.Json.Grammar
import MemoryProbe.Settings.Given

namespace MemoryProbe

/-!
Settings by name.  A setting has a value of its kind, settings are given by name, and settings
that are given are laid over others name by name.
-/

/-- A value that a setting may have. -/
inductive SettingValue where
  | count (value : Word)
  | switch (value : Bool)

/-- A value as it is written: a count in digits, without a fraction and without an exponent. -/
inductive SettingValue.Written : SettingValue -> List Char -> Prop
  | count {value digits} (whole : Json.IsWhole digits)
    (shows : Text.ShowsNumber 10 digits value.toNat) : Written (.count value) digits
  | switch {value} : Written (.switch value) (Json.flagText value)

namespace Settings

def value (settings : Settings) : SettingName -> SettingValue
  | .memoryLimit => .count settings.memoryLimit
  | .maxThreads => .count settings.maxThreads
  | .blockFactor => .count settings.blockFactor
  | .maxResults => .count settings.maxResults
  | .showFailedReads => .switch settings.showFailedReads

/-- Settings of which each is given. -/
def given (settings : Settings) : GivenSettings where
  memoryLimit := some settings.memoryLimit
  maxThreads := some settings.maxThreads
  blockFactor := some settings.blockFactor
  maxResults := some settings.maxResults
  showFailedReads := some settings.showFailedReads

theorem ext_value {first second : Settings}
    (same : forall name, first.value name = second.value name) : first = second := by
  rcases first with ⟨limit, threads, factor, results, shows⟩
  rcases second with ⟨limit', threads', factor', results', shows'⟩
  cases same .memoryLimit
  cases same .maxThreads
  cases same .blockFactor
  cases same .maxResults
  cases same .showFailedReads
  rfl

end Settings

namespace GivenSettings

/-- The value of a setting, if it is given. -/
def value? (given : GivenSettings) : SettingName -> Option SettingValue
  | .memoryLimit => given.memoryLimit.map .count
  | .maxThreads => given.maxThreads.map .count
  | .blockFactor => given.blockFactor.map .count
  | .maxResults => given.maxResults.map .count
  | .showFailedReads => given.showFailedReads.map .switch

theorem value?_empty (name : SettingName) : ({} : GivenSettings).value? name = none := by
  cases name <;> rfl

theorem value?_given (settings : Settings) (name : SettingName) :
    settings.given.value? name = some (settings.value name) := by
  cases name <;> rfl

theorem ext_value? {first second : GivenSettings}
    (same : forall name, first.value? name = second.value? name) : first = second := by
  have counts : Function.Injective SettingValue.count := fun _ _ => SettingValue.count.inj
  have switches : Function.Injective SettingValue.switch := fun _ _ => SettingValue.switch.inj
  rcases first with ⟨limit, threads, factor, results, shows⟩
  rcases second with ⟨limit', threads', factor', results', shows'⟩
  cases Option.map_injective counts (same .memoryLimit)
  cases Option.map_injective counts (same .maxThreads)
  cases Option.map_injective counts (same .blockFactor)
  cases Option.map_injective counts (same .maxResults)
  cases Option.map_injective switches (same .showFailedReads)
  rfl

/-- What is given counts, and what is not keeps its value. -/
theorem value_applyTo (given : GivenSettings) (settings : Settings) (name : SettingName) :
    (given.applyTo settings).value name = (given.value? name).getD (settings.value name) := by
  cases name <;> exact (Option.getD_map _ _ _).symm

/-- Where all settings are given, none of the others shows. -/
theorem applyTo_given (settings defaults : Settings) :
    settings.given.applyTo defaults = settings := by
  apply Settings.ext_value
  intro name
  rw [value_applyTo, value?_given, Option.getD_some]

theorem value_applyTo_applyTo (upper lower : GivenSettings) (settings : Settings)
    (name : SettingName) : (upper.applyTo (lower.applyTo settings)).value name =
      ((upper.value? name).or (lower.value? name)).getD (settings.value name) := by
  rw [value_applyTo, value_applyTo]
  cases upper.value? name <;> rfl

/-- Settings without one of them. -/
def erase (given : GivenSettings) : SettingName -> GivenSettings
  | .memoryLimit => { given with memoryLimit := none }
  | .maxThreads => { given with maxThreads := none }
  | .blockFactor => { given with blockFactor := none }
  | .maxResults => { given with maxResults := none }
  | .showFailedReads => { given with showFailedReads := none }

theorem value?_erase (given : GivenSettings) (name : SettingName) :
    (given.erase name).value? = Function.update given.value? name none := by
  funext other
  cases name <;> cases other <;> rfl

/-- A setting that is laid over others once more changes nothing but itself. -/
theorem value_applyTo_of_erase {given : GivenSettings} {name : SettingName} {value : SettingValue}
    (gives : given.value? name = some value) (settings : Settings) :
    (given.applyTo settings).value =
      Function.update ((given.erase name).applyTo settings).value name value := by
  funext other
  rw [value_applyTo]
  by_cases same : other = name
  · rw [same, Function.update_self, gives]
    rfl
  · rw [Function.update_of_ne same, value_applyTo, value?_erase, Function.update_of_ne same]

end GivenSettings

/-- What is told before the options are looked at is told behind them. -/
theorem Tuning.showFailedReads_applyTo (tuning : Tuning) {settings : Settings}
    (told : settings.showFailedReads = true) :
    (tuning.applyTo settings).showFailedReads = true := by
  have on := tuning.turnsOn
  rw [GivenSettings.applyTo]
  cases flag : tuning.showFailedReads with
  | none => exact told
  | some shows =>
      cases shows with
      | true => rfl
      | false => exact absurd flag on

end MemoryProbe
