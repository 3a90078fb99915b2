import MemoryProbe.CommandLine
import MemoryProbe.Proofs.Settings.Objects

namespace MemoryProbe

/-!
Settings in layers.  What a file gives lies over the defaults and what the command line gives lies
over both, and the settings are judged each time a layer has been laid.  All of this is said of any
format that is as it is relied on.
-/

namespace CommandLine

theorem judgedTwice_eq_ok_iff {base chosen result : Settings} :
    (do base.validate; chosen.validate; return chosen) = Except.ok result <->
      result = chosen ∧ base.validate = .ok () ∧ chosen.validate = .ok () := by
  constructor
  · intro answered
    rcases exists_of_bind_ok answered with ⟨_, valid, answered⟩
    rcases exists_of_bind_ok answered with ⟨_, accepted, answered⟩
    cases answered
    exact ⟨rfl, valid, accepted⟩
  · rintro ⟨rfl, valid, accepted⟩
    rw [valid, accepted]
    rfl

/-- The settings of an invocation with a settings file. -/
theorem settingsIn_eq_ok_iff {format : SettingsFormat} (lawful : format.Lawful)
    {asked : Invocation} {path : String} {readFile : String -> Except IoError (List UInt8)}
    {given : GivenSettings} {members : List Json.Member} {text : List Char}
    (chosen : asked.config = some path) (contents : readFile path = .ok (Text.utf8Bytes text))
    (found : given.FoundIn members text) {defaults result : Settings} :
    asked.settingsIn format defaults readFile = .ok result <->
      result = asked.tuning.applyTo (given.applyTo defaults) ∧
      (given.applyTo defaults).validate = .ok () ∧
      (asked.tuning.applyTo (given.applyTo defaults)).validate = .ok () := by
  rw [<- judgedTwice_eq_ok_iff, Invocation.settingsIn, chosen]
  dsimp only
  rw [contents, lawful.load_of_found found]
  rcases (given.applyTo defaults).validate_cases with valid | ⟨setting, invalid⟩
  · rw [valid]
    rfl
  · rw [invalid]
    rfl

end CommandLine

/-! ## The layers -/

/-- A member without blanks around its name. -/
def tightMember (name value : List Char) (content : Json.IsContent name) : Json.Member where
  front := []
  name := name
  back := []
  value := value
  blank_front := Json.gap_nil
  content := content
  blank_back := Json.gap_nil

/-- A member that names no setting. -/
def otherMember : Json.Member :=
  tightMember ['x'] [' ', '[', '-', '1', '.', '5', ',', ' ', '\x7b', '\x7d', ']']
    (Json.spells_plain (by decide)).isContent

theorem isValue_otherMember : Json.IsValue otherMember.value := by
  have number : Json.IsValue ['-', '1', '.', '5'] :=
    .number (@Json.IsNumber.intro ['-'] ['1'] ['.', '5'] [] (.inr rfl)
      (by decide) (.inr ⟨['5'], by decide, rfl⟩) (.inl rfl))
  have object : Json.IsValue ['\x7b', '\x7d'] :=
    .object (@Json.IsObject.empty [] Json.gap_nil) (List.forall_mem_nil _)
  have spaced : Json.IsValue [' ', '\x7b', '\x7d'] :=
    @Json.IsValue.spaced [' '] _ [] (by decide) object Json.gap_nil
  have list : Json.IsValue ['[', '-', '1', '.', '5', ',', ' ', '\x7b', '\x7d', ']'] :=
    @Json.IsValue.list [['-', '1', '.', '5'], [' ', '\x7b', '\x7d']] (by decide)
      (List.forall_mem_cons.mpr ⟨number, List.forall_mem_singleton.mpr spaced⟩)
  exact @Json.IsValue.spaced [' '] _ [] (by decide) list Json.gap_nil

theorem spells_escapedName :
    Json.Spells SettingName.maxThreads.text.toList
      ['m', 'a', 'x', '_', '\x5c', 'u', '0', '0', '7', '4', 'h', 'r', 'e', 'a', 'd', 's'] := by
  have letter : Text.ShowsNumber 16 ['0', '0', '7', '4'] 't'.toNat :=
    ⟨[0, 0, 7, 4], by decide, by decide, by decide⟩
  exact .plain (by decide) (.plain (by decide) (.plain (by decide) (.plain (by decide)
    (.numbered letter (Json.spells_plain (by decide))))))

/-- A member whose name has an escape for one of its letters. -/
def escapedMember : Json.Member :=
  tightMember _ [' ', '8', ' '] spells_escapedName.isContent

theorem names_escapedMember {name : SettingName} :
    name.Names escapedMember <-> name = .maxThreads :=
  ⟨fun names => names.unique spells_escapedName, fun same => same ▸ spells_escapedName⟩

theorem not_names_otherMember (name : SettingName) : ¬ name.Names otherMember :=
  fun names => by
    have same := Json.Spells.unique names (Json.spells_plain (by decide))
    cases name <;> exact absurd same (by decide)

theorem heldBy_escapedMember :
    GivenSettings.HeldBy { maxThreads := some 8 } [otherMember, escapedMember] where
  spelled := List.forall_mem_cons.mpr ⟨⟨_, Json.spells_plain (by decide)⟩,
    List.forall_mem_singleton.mpr ⟨_, spells_escapedName⟩⟩
  once := List.pairwise_pair.mpr fun name names => not_names_otherMember name names.1
  named := by
    intro member among name names
    have eight : (SettingValue.count 8).Written ['8'] :=
      .count (by decide) ⟨[8], by decide, by decide, by decide⟩
    rcases List.mem_pair.mp among with rfl | rfl
    · exact absurd names (not_names_otherMember name)
    · rw [names_escapedMember.mp names]
      exact ⟨.count 8, rfl, [' '], ['8'], [' '], by decide, by decide, eight, rfl⟩
  unnamed := by
    intro member among unnamed
    rcases List.mem_pair.mp among with rfl | rfl
    · exact isValue_otherMember
    · exact absurd (names_escapedMember.mpr rfl) (unnamed .maxThreads)
  given := by
    intro name given
    refine ⟨escapedMember, by simp, names_escapedMember.mpr ?_⟩
    cases name <;> simp [GivenSettings.value?] at given ⊢

/-- An invocation with a settings file and two options. -/
def limited : CommandLine.Invocation where
  config := some "probe.json"
  tuning := { memoryLimit := some 4096, showFailedReads := some true }

end MemoryProbe
