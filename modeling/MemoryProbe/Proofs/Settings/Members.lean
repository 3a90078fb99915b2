import MemoryProbe.Proofs.Json.Reading
import MemoryProbe.Proofs.Settings.Values

namespace MemoryProbe

/-!
Objects that give settings.  The members that name a setting give it its value, each setting at
most once, and the other members have any name and any value.  Without its last member an object
gives what the others name.
-/

namespace SettingName

/-- A member has the setting's name, in one of its spellings. -/
def Names (name : SettingName) (member : Json.Member) : Prop :=
  Json.Spells name.text.toList member.name

theorem text_injective {name other : SettingName}
    (same : name.text.toList = other.text.toList) : name = other := by
  cases name <;> cases other <;> first | rfl | exact absurd same (by decide)

theorem Names.unique {name other : SettingName} {member : Json.Member} (names : name.Names member)
    (also : other.Names member) : name = other :=
  text_injective (Json.Spells.unique names also)

end SettingName

/-- A value with blanks around it. -/
def SettingValue.Held (value : SettingValue) (text : List Char) : Prop :=
  ∃ front written back, Json.Gap front ∧ Json.Gap back ∧ value.Written written ∧
    text = front ++ (written ++ back)

namespace GivenSettings

/-- Members agree with settings: no setting is named twice, and one that is named has its value.
What has another name has any value. -/
structure Suits (given : GivenSettings) (members : List Json.Member) : Prop where
  spelled : forall member, member ∈ members -> member.IsSpelled
  once : members.Pairwise fun first second =>
    forall name : SettingName, ¬ (name.Names first ∧ name.Names second)
  named : forall member, member ∈ members -> forall name : SettingName, name.Names member ->
    ∃ value, given.value? name = some value ∧ value.Held member.value
  unnamed : forall member, member ∈ members -> (forall name : SettingName, ¬ name.Names member) ->
    Json.IsValue member.value

/-- Members give settings: these and no others are named. -/
structure HeldBy (given : GivenSettings) (members : List Json.Member) : Prop
    extends Suits given members where
  given : forall name, given.value? name ≠ none -> ∃ member, member ∈ members ∧ name.Names member

/-- Settings are found in a text: it is an object with these members, which give them. -/
def FoundIn (given : GivenSettings) (members : List Json.Member) (text : List Char) : Prop :=
  given.HeldBy members ∧ Json.IsDocument members text

variable {given other : GivenSettings} {member : Json.Member} {members : List Json.Member}

theorem Suits.tail (suits : given.Suits (member :: members)) : given.Suits members where
  spelled := fun other among => suits.spelled other (List.mem_cons_of_mem _ among)
  once := suits.once.tail
  named := fun other among => suits.named other (List.mem_cons_of_mem _ among)
  unnamed := fun other among => suits.unnamed other (List.mem_cons_of_mem _ among)

theorem HeldBy.value?_eq_none (held : given.HeldBy members) {name : SettingName}
    (others : forall member, member ∈ members -> ¬ name.Names member) :
    given.value? name = none := by
  by_contra some
  rcases held.given name some with ⟨member, among, names⟩
  exact others member among names

/-- No members give no settings. -/
theorem heldBy_nil_iff : given.HeldBy [] <-> given = {} := by
  constructor
  · intro held
    apply ext_value?
    intro name
    rw [value?_empty]
    exact held.value?_eq_none fun member among => absurd among List.not_mem_nil
  · rintro rfl
    exact ⟨⟨List.forall_mem_nil _, .nil, List.forall_mem_nil _, List.forall_mem_nil _⟩,
      fun name some => absurd (value?_empty name) some⟩

/-- The members in front of one that names a setting give the other settings. -/
theorem HeldBy.erase {name : SettingName} (held : given.HeldBy (members ++ [member]))
    (names : name.Names member) : (given.erase name).HeldBy members where
  spelled := fun other among => held.spelled other (List.mem_append_left _ among)
  once := (List.pairwise_append.mp held.once).1
  named := by
    intro other among also further
    have apart : also ≠ name := by
      rintro rfl
      exact (List.pairwise_append.mp held.once).2.2 other among member
        (List.mem_singleton_self _) also ⟨further, names⟩
    rw [value?_erase, Function.update_of_ne apart]
    exact held.named other (List.mem_append_left _ among) also further
  unnamed := fun other among => held.unnamed other (List.mem_append_left _ among)
  given := by
    intro also some
    rw [value?_erase] at some
    have apart : also ≠ name := by
      rintro rfl
      exact some (Function.update_self also none given.value?)
    rw [Function.update_of_ne apart] at some
    rcases held.given also some with ⟨other, among, further⟩
    rcases List.mem_append.mp among with inside | last
    · exact ⟨other, inside, further⟩
    · rw [List.mem_singleton.mp last] at further
      exact absurd (further.unique names) apart

/-- The members in front of one that names no setting give all settings. -/
theorem HeldBy.init (held : given.HeldBy (members ++ [member]))
    (unnamed : forall name : SettingName, ¬ name.Names member) : given.HeldBy members where
  spelled := fun other among => held.spelled other (List.mem_append_left _ among)
  once := (List.pairwise_append.mp held.once).1
  named := fun other among => held.named other (List.mem_append_left _ among)
  unnamed := fun other among => held.unnamed other (List.mem_append_left _ among)
  given := by
    intro name some
    rcases held.given name some with ⟨other, among, names⟩
    rcases List.mem_append.mp among with inside | last
    · exact ⟨other, inside, names⟩
    · rw [List.mem_singleton.mp last] at names
      exact absurd names (unnamed name)

end GivenSettings

end MemoryProbe
