import MemoryProbe.Proofs.Settings.Members
import MemoryProbe.Proofs.Text.Decoding
import MemoryProbe.Settings.Format

namespace MemoryProbe

/-!
What is relied on of a format of settings, and what follows for files.  The laws are about one
member more or less at the end of an object; whatever the members of an object are, what it gives
is laid over the defaults then.
-/

/-- What is relied on of a format: settings are objects, an object without members leaves all to
the defaults, and one member more gives the setting that it names, or is skipped. -/
structure SettingsFormat.Lawful (format : SettingsFormat) : Prop where
  bare : forall {text}, Json.IsDocument [] text ->
    forall defaults, format.read defaults text = .ok defaults
  fills : forall {given : GivenSettings} {members member name value shorter text},
    given.HeldBy (members ++ [member]) -> SettingName.Names name member ->
    given.value? name = some value -> Json.IsDocument members shorter ->
    Json.IsDocument (members ++ [member]) text -> forall {defaults settings},
    format.read defaults shorter = .ok settings -> ∃ later, format.read defaults text = .ok later ∧
      later.value = Function.update settings.value name value
  skips : forall {given : GivenSettings} {members member shorter text},
    given.HeldBy (members ++ [member]) -> (forall name, ¬ SettingName.Names name member) ->
    Json.IsDocument members shorter -> Json.IsDocument (members ++ [member]) text ->
    forall {defaults settings}, format.read defaults shorter = .ok settings ->
      format.read defaults text = .ok settings
  writes : forall settings : Settings, ∃ members text, format.write settings = .ok text ∧
    settings.given.FoundIn members text

namespace Settings

/-- Settings are accepted, or refused for a setting that has to be positive. -/
theorem validate_cases (settings : Settings) :
    settings.validate = .ok () ∨ ∃ setting, settings.validate = .error (.notPositive setting) := by
  unfold validate
  split_ifs
  · exact .inr ⟨_, rfl⟩
  · exact .inr ⟨_, rfl⟩
  · exact .inr ⟨_, rfl⟩
  · exact .inl rfl

/-- What comes of judging settings: they are answered if they are accepted, and one of them is
blamed if not. -/
structure JudgedAs (settings : Settings) (result : Except SettingsError Settings) : Prop where
  accepted : settings.validate = .ok () -> result = .ok settings
  refused : settings.validate ≠ .ok () -> ∃ setting, result = .error (.notPositive setting)

theorem judgedAs_validate (settings : Settings) :
    settings.JudgedAs (settings.validate.map fun _ => settings) := by
  rcases settings.validate_cases with valid | ⟨setting, invalid⟩
  · refine ⟨fun _ => ?_, fun refused => absurd valid refused⟩
    rw [valid]
    rfl
  · refine ⟨fun accepted => ?_, fun _ => ⟨setting, ?_⟩⟩
    · rw [invalid] at accepted
      cases accepted
    · rw [invalid]
      rfl

end Settings

namespace SettingsFormat

variable {format : SettingsFormat}

/-- The settings of a file of characters that are read. -/
theorem load_of_read {defaults settings : Settings} {text : List Char}
    (read : format.read defaults text = .ok settings) :
    Settings.load format defaults (.ok (Text.utf8Bytes text)) =
      settings.validate.map fun _ => settings := by
  have decoded := (Text.spells_utf8Bytes text).decodes
  dsimp only [Settings.load, Except.mapError, bind, Except.bind]
  rw [decoded]
  dsimp only
  rw [read]
  rfl

section Laws

variable (lawful : format.Lawful)

include lawful

/-- What an object gives is laid over the defaults. -/
theorem Lawful.read_of_found {given : GivenSettings} {members : List Json.Member}
    {text : List Char} (found : given.FoundIn members text) (defaults : Settings) :
    format.read defaults text = .ok (given.applyTo defaults) := by
  -- The laws take the last member away, so the induction is from the end of the object.
  induction members using List.reverseRecOn generalizing given text with
  | nil =>
      rw [GivenSettings.heldBy_nil_iff.mp found.1]
      exact lawful.bare found.2 defaults
  | append_singleton members member ih =>
      rcases found with ⟨held, written⟩
      rcases Json.exists_isDocument members with ⟨shorter, before⟩
      by_cases known : ∃ name : SettingName, name.Names member
      · rcases known with ⟨name, names⟩
        rcases held.named member (by simp) name names with ⟨value, gives, -⟩
        rcases lawful.fills held names gives before written (ih ⟨held.erase names, before⟩) with
          ⟨later, read, values⟩
        rw [<- GivenSettings.value_applyTo_of_erase gives] at values
        rw [read, Settings.ext_value (congrFun values)]
      · have unnamed : forall name : SettingName, ¬ name.Names member :=
          fun name names => known ⟨name, names⟩
        exact lawful.skips held unnamed before written (ih ⟨held.init unnamed, before⟩)

theorem Lawful.load_of_found {given : GivenSettings} {members : List Json.Member}
    {text : List Char} (found : given.FoundIn members text) (defaults : Settings) :
    Settings.load format defaults (.ok (Text.utf8Bytes text)) =
      (given.applyTo defaults).validate.map fun _ => given.applyTo defaults :=
  load_of_read (lawful.read_of_found found defaults)

/-- What is saved is loaded as it is, whatever the defaults are. -/
theorem Lawful.load_of_saved (settings : Settings) :
    ∃ bytes, (forall writeFile, settings.save format writeFile =
        (writeFile bytes).mapError .io) ∧
      forall defaults, Settings.load format defaults (.ok bytes) =
        settings.validate.map fun _ => settings := by
  rcases lawful.writes settings with ⟨members, text, written, found⟩
  refine ⟨Text.utf8Bytes text, fun writeFile => ?_, fun defaults => ?_⟩
  · rw [Settings.save, written]
    rfl
  · rw [lawful.load_of_found found, GivenSettings.applyTo_given]

end Laws

end SettingsFormat

end MemoryProbe
