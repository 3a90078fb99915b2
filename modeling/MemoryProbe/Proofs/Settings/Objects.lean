import MemoryProbe.Proofs.Settings.Format
import MemoryProbe.Settings.Document

namespace MemoryProbe

/-!
Settings as JSON.  An object that gives settings is read as exactly those that it names, in
whatever order and with whatever blanks it is written, and settings are written as an object of
five lines; so this is a format as it is relied on.
-/

namespace SettingName

theorem ofText?_text (name : SettingName) : ofText? name.text.toList = some name := by
  cases name <;> decide

theorem text_of_ofText? {name : SettingName} {text : List Char} (known : ofText? text = some name) :
    text = name.text.toList := by
  rw [ofText?] at known
  have same := List.find?_some known
  exact (eq_of_beq same).symm

end SettingName

namespace GivenSettings

theorem gives_eq (given : GivenSettings) (name : SettingName) :
    given.gives name = (given.value? name).isSome := by
  cases name <;> exact Option.isSome_map.symm

/-- The value that a setting has somewhere, and so one of its kind, is read where it is written, and
nothing else that is given changes. -/
theorem readValue_append {name : SettingName} {value : SettingValue} {model : GivenSettings}
    (kind : model.value? name = some value) {written gap rest : List Char}
    (stands : value.Written written) (blank : Json.Gap gap) (ends : Json.Ends rest)
    (given : GivenSettings) :
    ∃ later, given.readValue name (gap ++ (written ++ rest)) = .ok (later, rest) ∧
      later.value? = Function.update given.value? name (some value) := by
  cases name
  case showFailedReads =>
    rcases Option.map_eq_some_iff.mp kind with ⟨flag, -, rfl⟩
    cases stands
    refine ⟨{ given with showFailedReads := some flag },
      congrArg (Except.map _) (Json.readFlag_append _ blank flag rest), ?_⟩
    funext other
    cases other <;> rfl
  all_goals
    rcases Option.map_eq_some_iff.mp kind with ⟨word, -, rfl⟩
    rcases stands with ⟨whole, shows⟩
    refine ⟨_, congrArg (Except.map _) (Json.readWord_append whole shows ends _ blank), ?_⟩
    funext other
    cases other <;> rfl

section Members

variable {model given : GivenSettings} {member : Json.Member} {rest : List Char}

/-! ## One member -/

/-- A member that names a setting is read as its value. -/
theorem readMember_eq_readValue {name : SettingName} (names : name.Names member)
    (fresh : given.value? name = none) (rest : List Char) :
    given.readMember (member.opened rest) = given.readValue name (member.value ++ rest) := by
  simp only [readMember, Json.Member.opened, Json.readText_append names, Json.ok_bind,
    SettingName.ofText?_text, gives_eq, fresh, Option.isSome_none, Bool.false_eq_true,
    if_false, Json.skipColon_append member.blank_back]

/-- A member that names a setting gives it. -/
theorem readMember_of_names {name : SettingName} {value : SettingValue} (names : name.Names member)
    (kind : model.value? name = some value) (held : value.Held member.value)
    (ends : Json.Ends rest) (fresh : given.value? name = none) :
    ∃ later gap, Json.Gap gap ∧ given.readMember (member.opened rest) = .ok (later, gap ++ rest) ∧
      later.value? = Function.update given.value? name (some value) := by
  rcases held with ⟨front, written, back, before, behind, stands, split⟩
  rcases readValue_append kind stands before (ends.gap_append behind) given with
    ⟨later, read, updated⟩
  refine ⟨later, back, behind, ?_, updated⟩
  rw [readMember_eq_readValue names fresh, split, List.append_assoc, List.append_assoc, read]

/-- A member of another name is skipped. -/
theorem readMember_of_unnamed {characters : List Char}
    (spells : Json.Spells characters member.name)
    (unnamed : forall name : SettingName, ¬ name.Names member) (held : Json.IsValue member.value)
    (ends : Json.Ends rest) :
    ∃ gap, Json.Gap gap ∧ given.readMember (member.opened rest) = .ok (given, gap ++ rest) := by
  have unknown : SettingName.ofText? characters = none := by
    rw [Option.eq_none_iff_forall_ne_some]
    intro name known
    rw [SettingName.text_of_ofText? known] at spells
    exact unnamed name spells
  have long : 2 * member.value.length ≤ 2 * (member.value ++ rest).length + 2 := by
    rw [List.length_append]
    omega
  rcases held.skips _ rest long ends with ⟨gap, blank, skipped⟩
  refine ⟨gap, blank, ?_⟩
  simp only [readMember, Json.Member.opened, Json.readText_append spells, Json.ok_bind, unknown,
    Json.skipColon_append member.blank_back, Json.skipValue, skipped]
  rfl

/-- What is given behind a member: the setting that it names has the value of the model, and the
others are as before. -/
theorem readMember_append {members : List Json.Member} (suits : model.Suits members)
    (among : member ∈ members)
    (fresh : forall name : SettingName, name.Names member -> given.value? name = none)
    (ends : Json.Ends rest) :
    ∃ later gap, Json.Gap gap ∧ given.readMember (member.opened rest) = .ok (later, gap ++ rest) ∧
      forall name : SettingName,
        (name.Names member -> later.value? name = model.value? name) ∧
        (¬ name.Names member -> later.value? name = given.value? name) := by
  by_cases known : ∃ name : SettingName, name.Names member
  · rcases known with ⟨name, names⟩
    rcases suits.named member among name names with ⟨value, kind, holds⟩
    rcases readMember_of_names names kind holds ends (fresh name names) with
      ⟨later, gap, blank, read, updated⟩
    refine ⟨later, gap, blank, read, fun other => ?_⟩
    rw [updated]
    constructor
    · intro also
      rw [also.unique names, Function.update_self, kind]
    · intro others
      refine Function.update_of_ne ?_ _ _
      rintro rfl
      exact others names
  · have unnamed : forall name : SettingName, ¬ name.Names member :=
      fun name names => known ⟨name, names⟩
    rcases suits.spelled member among with ⟨characters, spells⟩
    rcases readMember_of_unnamed spells unnamed (suits.unnamed member among unnamed) ends with
      ⟨gap, blank, read⟩
    exact ⟨given, gap, blank, read, fun name => ⟨fun names => absurd names (unnamed name),
      fun _ => rfl⟩⟩

/-! ## All members -/

variable {later : GivenSettings} {gap inner text : List Char} {count : Nat}

theorem readMembers_of_last (blank : Json.Gap gap)
    (read : given.readMember text = .ok (later, gap ++ '\x7d' :: rest)) :
    given.readMembers text (count + 1) = .ok (later, rest) := by
  rw [readMembers, read, Json.ok_bind]
  dsimp only
  rw [Json.skipBlanks_append blank]
  rfl

theorem readMembers_of_more (blank : Json.Gap gap)
    (read : given.readMember text = .ok (later, gap ++ ',' :: rest))
    (begun : Json.skipBlanks rest = '\x22' :: inner) :
    given.readMembers text (count + 1) = later.readMembers inner count := by
  rw [readMembers, read, Json.ok_bind]
  dsimp only
  rw [Json.skipBlanks_append blank, Json.skipBlanks_cons (by decide)]
  simp only [begun]

/-- The first member starts with a quote, and behind it there is a character for every further
member. -/
theorem exists_opened {members : List Json.Member} (some : members ≠ []) (rest : List Char) :
    ∃ inner, Json.skipBlanks (Json.joined members ++ rest) = '\x22' :: inner ∧
      members.length ≤ inner.length + 1 := by
  induction members with
  | nil => exact absurd rfl some
  | cons member members ih =>
      cases members with
      | nil =>
          rw [Json.joined_singleton]
          exact ⟨_, Json.skipBlanks_text member rest, by simp⟩
      | cons second members =>
          rcases ih (List.cons_ne_nil _ _) with ⟨inner, opened, long⟩
          have shorter : (Json.skipBlanks (Json.joined (second :: members) ++ rest)).length ≤
              (Json.joined (second :: members) ++ rest).length :=
            (List.dropWhile_suffix _).length_le
          rw [opened, List.length_cons] at shorter
          rw [Json.joined_cons, List.append_assoc, Json.skipBlanks_text, List.cons_append]
          refine ⟨_, rfl, ?_⟩
          simp only [Json.Member.opened, List.length_append, List.length_cons] at long shorter ⊢
          omega

/-- The first of several members is read, and the others are to be read behind it. -/
theorem readMembers_cons {second : Json.Member} {members : List Json.Member}
    (suits : model.Suits (member :: second :: members))
    (fresh : forall other, other ∈ member :: second :: members -> forall name : SettingName,
      name.Names other -> given.value? name = none)
    (opened : Json.skipBlanks (Json.joined (member :: second :: members) ++ '\x7d' :: rest) =
      '\x22' :: inner) :
    ∃ (later : GivenSettings) (next : List Char),
      given.readMembers inner (count + 1) = later.readMembers next count ∧
      Json.skipBlanks (Json.joined (second :: members) ++ '\x7d' :: rest) = '\x22' :: next ∧
      (forall other, other ∈ second :: members -> forall name : SettingName, name.Names other ->
        later.value? name = none) ∧
      forall name : SettingName,
        (name.Names member -> later.value? name = model.value? name) ∧
        (¬ name.Names member -> later.value? name = given.value? name) := by
  rw [Json.joined_cons, List.append_assoc, Json.skipBlanks_text, List.cons_append,
    List.cons.injEq] at opened
  rw [List.forall_mem_cons] at fresh
  rcases readMember_append suits List.mem_cons_self fresh.1
    (@Json.ends_cons ',' (Json.joined (second :: members) ++ '\x7d' :: rest) (by decide)) with
    ⟨later, gap, blank, read, values⟩
  rw [opened.2] at read
  rcases exists_opened (List.cons_ne_nil second members) ('\x7d' :: rest) with ⟨next, begun, -⟩
  refine ⟨later, next, readMembers_of_more blank read begun, begun, ?_, values⟩
  intro other behind name names
  rw [(values name).2 fun also => List.rel_of_pairwise_cons suits.once behind name ⟨also, names⟩]
  exact fresh.2 other behind name names

/-- The members of an object behind the opening quote of the first: a setting that is named has the
value of the model afterwards, and one that is not is as before. -/
theorem readMembers_append {members : List Json.Member} (some : members ≠ [])
    (suits : model.Suits members)
    (fresh : forall member, member ∈ members -> forall name : SettingName, name.Names member ->
      given.value? name = none)
    (enough : members.length ≤ count)
    (opened : Json.skipBlanks (Json.joined members ++ '\x7d' :: rest) = '\x22' :: inner) :
    ∃ later, given.readMembers inner count = .ok (later, rest) ∧
      forall name : SettingName,
        ((∃ member, member ∈ members ∧ name.Names member) ->
          later.value? name = model.value? name) ∧
        ((forall member, member ∈ members -> ¬ name.Names member) ->
          later.value? name = given.value? name) := by
  induction members generalizing given count inner with
  | nil => exact absurd rfl some
  | cons member members ih =>
      cases count with
      | zero => simp at enough
      | succ count =>
          cases members with
          | nil =>
              rw [Json.joined_singleton, Json.skipBlanks_text, List.cons.injEq] at opened
              rcases readMember_append suits List.mem_cons_self
                (fresh member List.mem_cons_self) (@Json.ends_cons '\x7d' rest (by decide)) with
                ⟨later, gap, blank, read, values⟩
              rw [opened.2] at read
              exact ⟨later, readMembers_of_last blank read, by simpa using values⟩
          | cons second members =>
              rcases readMembers_cons suits fresh opened with
                ⟨later, next, step, begun, unread, values⟩
              rcases ih (List.cons_ne_nil _ _) suits.tail unread
                (Nat.le_of_succ_le_succ enough) begun with ⟨last, more, further⟩
              refine ⟨last, step.trans more, fun name => ⟨?_, fun others => ?_⟩⟩
              · rintro ⟨other, among, names⟩
                rcases List.mem_cons.mp among with rfl | behind
                · rw [(further name).2 fun second behind also => ?_, (values name).1 names]
                  exact List.rel_of_pairwise_cons suits.once behind name ⟨names, also⟩
                · exact (further name).1 ⟨other, behind, names⟩
              · rw [List.forall_mem_cons] at others
                rw [(further name).2 others.2, (values name).2 others.1]

end Members

/-! ## Whole texts -/

section Objects

variable {given : GivenSettings} {members : List Json.Member}
  {front inside behind text : List Char}

/-- The members of an object are read from the opening quote of the first. -/
theorem readObject_joined (some : members ≠ []) (behind : List Char) :
    ∃ inner, readObject (Json.joined members ++ '\x7d' :: behind) =
        readMembers {} inner (inner.length + 1) ∧
      Json.skipBlanks (Json.joined members ++ '\x7d' :: behind) = '\x22' :: inner ∧
      members.length ≤ inner.length + 1 := by
  rcases exists_opened some ('\x7d' :: behind) with ⟨inner, opened, enough⟩
  refine ⟨inner, ?_, opened, enough⟩
  simp only [readObject, opened]

theorem ofDocument_of_read (before : Json.Gap front) (blank : Json.Gap behind)
    (read : readObject inside = .ok (given, behind)) :
    ofDocument (front ++ '\x7b' :: inside) = .ok given := by
  rw [ofDocument, Json.skipBlanks_append before, Json.skipBlanks_cons (by decide)]
  simp only [read, Json.ok_bind, Json.skipBlanks_gap blank]
  rfl

/-- Settings that are found are read. -/
theorem ofDocument_of_found (found : given.FoundIn members text) :
    ofDocument text = .ok given := by
  rcases found with ⟨held, object, front, back, written, before, blank, rfl⟩
  cases written with
  | @empty gap between =>
      rw [List.cons_append, List.append_assoc]
      refine ofDocument_of_read before blank ?_
      rw [readObject, Json.skipBlanks_append between, heldBy_nil_iff.mp held]
      rfl
  | full some =>
      rw [Json.objectText_append]
      refine ofDocument_of_read before blank ?_
      rcases readObject_joined some back with ⟨inner, read, opened, enough⟩
      rcases readMembers_append some held.toSuits
        (fun _ _ name _ => value?_empty name) enough opened with ⟨later, whole, values⟩
      have same : later = given := by
        apply ext_value?
        intro name
        by_cases named : ∃ member, member ∈ members ∧ name.Names member
        · exact (values name).1 named
        · have others : forall member, member ∈ members -> ¬ name.Names member :=
            fun member among names => named ⟨member, among, names⟩
          rw [(values name).2 others, value?_empty, held.value?_eq_none others]
      rw [read, whole, same]

end Objects

end GivenSettings

/-! ## Saved settings -/

namespace Settings

theorem written_valueText (settings : Settings) (name : SettingName) :
    (settings.value name).Written (settings.valueText name).toList := by
  have count (value : Word) : (SettingValue.count value).Written (toString value.toNat).toList :=
    .count (Json.isWhole_toString value.toNat).1 (Json.isWhole_toString value.toNat).2
  cases name with
  | memoryLimit => exact count _
  | maxThreads => exact count _
  | blockFactor => exact count _
  | maxResults => exact count _
  | showFailedReads =>
      have flag : (if settings.showFailedReads then "true" else "false").toList =
          Json.flagText settings.showFailedReads := by
        cases settings.showFailedReads <;> decide
      rw [valueText, flag]
      exact .switch

/-- The line of a setting in an object, with the break in front of it, and behind the last one. -/
def savedMember (settings : Settings) (name : SettingName) : Json.Member where
  front := ['\n', ' ', ' ']
  name := name.text.toList
  back := []
  value := ' ' :: ((settings.valueText name).toList ++
    if name = .showFailedReads then ['\n'] else [])
  blank_front := by decide
  content := (Json.spells_plain (by cases name <;> decide)).isContent
  blank_back := by decide

theorem names_savedMember {settings : Settings} {name other : SettingName} :
    name.Names (settings.savedMember other) <-> name = other := by
  have spelled : other.Names (settings.savedMember other) :=
    Json.spells_plain (by cases other <;> decide)
  exact ⟨fun names => names.unique spelled, fun same => same ▸ spelled⟩

theorem document_eq (settings : Settings) :
    settings.document.toList = Json.objectText (SettingName.all.map settings.savedMember) := by
  simp [document, SettingName.all, memberText, Json.objectText, Json.joined, Json.Member.text,
    Json.Member.opened, savedMember]

theorem heldBy_saved (settings : Settings) :
    settings.given.HeldBy (SettingName.all.map settings.savedMember) where
  spelled := by
    intro member among
    rcases List.mem_map.mp among with ⟨name, -, rfl⟩
    exact ⟨name.text.toList, names_savedMember.mpr rfl⟩
  once := by
    rw [List.pairwise_map]
    have apart : SettingName.all.Pairwise fun first second => first ≠ second := by decide
    refine apart.imp fun {first second} different name => ?_
    rw [names_savedMember, names_savedMember]
    rintro ⟨rfl, same⟩
    exact different same
  named := by
    intro member among name names
    rcases List.mem_map.mp among with ⟨other, -, rfl⟩
    rw [names_savedMember.mp names]
    refine ⟨_, GivenSettings.value?_given settings other, [' '], (settings.valueText other).toList, _, by decide,
      ?_, settings.written_valueText other, rfl⟩
    split <;> decide
  unnamed := by
    intro member among unnamed
    rcases List.mem_map.mp among with ⟨other, -, rfl⟩
    exact absurd (names_savedMember.mpr rfl) (unnamed other)
  given := by
    intro name _
    refine ⟨_, List.mem_map_of_mem (f := settings.savedMember) ?_, names_savedMember.mpr rfl⟩
    cases name <;> decide

theorem found_document (settings : Settings) :
    settings.given.FoundIn (SettingName.all.map settings.savedMember) settings.document.toList := by
  rw [document_eq]
  exact ⟨settings.heldBy_saved, Json.isDocument_objectText (List.cons_ne_nil _ _)⟩

end Settings

namespace SettingsFormat

theorem json_read_of_found {given : GivenSettings} {members : List Json.Member}
    {text : List Char} (found : given.FoundIn members text) (defaults : Settings) :
    json.read defaults text = .ok (given.applyTo defaults) := by
  simp only [json, GivenSettings.ofDocument_of_found found]

/-- The format that is used is as it is relied on. -/
theorem json_lawful : json.Lawful where
  bare := fun written defaults =>
    json_read_of_found ⟨GivenSettings.heldBy_nil_iff.mpr rfl, written⟩ defaults
  fills := by
    intro given members member name value shorter text held names gives before written defaults
      settings read
    rw [json_read_of_found ⟨held.erase names, before⟩] at read
    cases read
    exact ⟨_, json_read_of_found ⟨held, written⟩ defaults,
      GivenSettings.value_applyTo_of_erase gives defaults⟩
  skips := by
    intro given members member shorter text held unnamed before written defaults settings read
    rw [json_read_of_found ⟨held.init unnamed, before⟩] at read
    rw [json_read_of_found ⟨held, written⟩, read]
  writes := fun settings => ⟨_, _, rfl, settings.found_document⟩

end SettingsFormat

end MemoryProbe
