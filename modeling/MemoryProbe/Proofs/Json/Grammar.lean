import MemoryProbe.Json.Reader
import MemoryProbe.Proofs.Text.Figures

namespace MemoryProbe
namespace Json

/-!
The grammar of JSON, said without a reader.  A text between quotes is content, which is written in
characters and escapes; some content spells characters, and content with an escape that is half of
a pair of escapes spells none.  Values have blanks around them wherever they stand, and a member of
an object keeps its value as it is written.
-/

/-! ## Blanks -/

/-- A stretch of blanks, as it may stand around values, names and marks. -/
def Gap (text : List Char) : Prop :=
  forall character, character ∈ text ->
    character = ' ' ∨ character = '\t' ∨ character = '\n' ∨ character = '\r'

instance (text : List Char) : Decidable (Gap text) :=
  List.decidableBAll
    (fun character => character = ' ' ∨ character = '\t' ∨ character = '\n' ∨ character = '\r') text

theorem gap_nil : Gap [] :=
  List.forall_mem_nil _

theorem Gap.append {front back : List Char} (before : Gap front) (behind : Gap back) :
    Gap (front ++ back) := by
  unfold Gap
  rw [List.forall_mem_append]
  exact ⟨before, behind⟩

/-! ## Numbers -/

/-- Decimal digits, at least one. -/
structure IsDigits (text : List Char) : Prop where
  filled : text ≠ []
  digits : forall character, character ∈ text -> character.isDigit = true

theorem isDigits_iff {text : List Char} :
    IsDigits text <-> text ≠ [] ∧ text.all Char.isDigit = true := by
  rw [List.all_eq_true]
  exact ⟨fun shown => ⟨shown.filled, shown.digits⟩, fun shown => ⟨shown.1, shown.2⟩⟩

instance (text : List Char) : Decidable (IsDigits text) :=
  decidable_of_iff _ isDigits_iff.symm

/-- A whole part starts with zero only if it is zero. -/
structure IsWhole (text : List Char) : Prop extends IsDigits text where
  plain : text.head? = some '0' -> text = ['0']

theorem isWhole_iff {text : List Char} :
    IsWhole text <-> IsDigits text ∧ (text.head? = some '0' -> text = ['0']) :=
  ⟨fun whole => ⟨whole.toIsDigits, whole.plain⟩, fun whole => ⟨whole.1, whole.2⟩⟩

instance (text : List Char) : Decidable (IsWhole text) :=
  decidable_of_iff _ isWhole_iff.symm

def IsFraction (text : List Char) : Prop :=
  text = [] ∨ ∃ digits, IsDigits digits ∧ text = '.' :: digits

def IsExponent (text : List Char) : Prop :=
  text = [] ∨ ∃ mark sign digits, (mark = 'e' ∨ mark = 'E') ∧
    (sign = [] ∨ sign = ['+'] ∨ sign = ['-']) ∧ IsDigits digits ∧
    text = mark :: (sign ++ digits)

inductive IsNumber : List Char -> Prop
  | intro {sign whole fraction exponent} (minus : sign = [] ∨ sign = ['-']) (first : IsWhole whole)
    (places : IsFraction fraction) (power : IsExponent exponent) :
    IsNumber (sign ++ (whole ++ (fraction ++ exponent)))

/-! ## Texts -/

/-- The letters of the escapes that have one, with the characters that they stand for. -/
def escapes : List (Char × Char) :=
  [('\x22', '\x22'), ('\x5c', '\x5c'), ('/', '/'), ('b', '\x08'), ('f', '\x0c'), ('n', '\n'),
    ('r', '\r'), ('t', '\t')]

/-- A character stands for itself in a text if it is none of control, quote and backslash. -/
def IsPlain (character : Char) : Prop :=
  ' ' ≤ character ∧ character ≠ '\x22' ∧ character ≠ '\x5c'

instance (character : Char) : Decidable (IsPlain character) :=
  inferInstanceAs (Decidable (_ ∧ _))

/-- Every character stands for itself. -/
def ArePlain (text : List Char) : Prop :=
  forall character, character ∈ text -> IsPlain character

instance (text : List Char) : Decidable (ArePlain text) :=
  List.decidableBAll IsPlain text

/-- What may stand between quotes.  An escape of four digits may have any value. -/
inductive IsContent : List Char -> Prop
  | nil : IsContent []
  | plain {character content} (plain : IsPlain character) (rest : IsContent content) :
    IsContent (character :: content)
  | lettered {letter character content} (escape : (letter, character) ∈ escapes)
    (rest : IsContent content) : IsContent ('\x5c' :: letter :: content)
  | numbered {first second third fourth unit content}
    (shows : Text.ShowsNumber 16 [first, second, third, fourth] unit) (rest : IsContent content) :
    IsContent ('\x5c' :: 'u' :: first :: second :: third :: fourth :: content)

/-- Characters are spelled by a content.  A character above the four digits of an escape is spelled
by two, whose values lie in two ranges that no character is in. -/
inductive Spells : List Char -> List Char -> Prop
  | nil : Spells [] []
  | plain {character characters content} (plain : IsPlain character)
    (rest : Spells characters content) : Spells (character :: characters) (character :: content)
  | lettered {letter character characters content} (escape : (letter, character) ∈ escapes)
    (rest : Spells characters content) :
    Spells (character :: characters) ('\x5c' :: letter :: content)
  | numbered {character characters first second third fourth content}
    (shows : Text.ShowsNumber 16 [first, second, third, fourth] character.toNat)
    (rest : Spells characters content) :
    Spells (character :: characters)
      ('\x5c' :: 'u' :: first :: second :: third :: fourth :: content)
  | paired {character characters first second third fourth fifth sixth seventh eighth content}
    {leading trailing : Nat} (upper : Text.ShowsNumber 16 [first, second, third, fourth] leading)
    (lower : Text.ShowsNumber 16 [fifth, sixth, seventh, eighth] trailing)
    (leads : 0xD800 ≤ leading ∧ leading < 0xDC00) (trails : 0xDC00 ≤ trailing ∧ trailing < 0xE000)
    (value : character.toNat = 0x10000 + (leading - 0xD800) * 0x400 + (trailing - 0xDC00))
    (rest : Spells characters content) :
    Spells (character :: characters)
      ('\x5c' :: 'u' :: first :: second :: third :: fourth ::
        '\x5c' :: 'u' :: fifth :: sixth :: seventh :: eighth :: content)

theorem Spells.isContent {characters content : List Char} (spells : Spells characters content) :
    IsContent content := by
  induction spells with
  | nil => exact .nil
  | plain plain rest ih => exact .plain plain ih
  | lettered escape rest ih => exact .lettered escape ih
  | numbered shows rest ih => exact .numbered shows ih
  | paired upper lower leads trails value rest ih => exact .numbered upper (.numbered lower ih)

theorem spells_plain {characters : List Char} (plain : ArePlain characters) :
    Spells characters characters := by
  induction characters with
  | nil => exact .nil
  | cons character characters ih =>
      rw [ArePlain, List.forall_mem_cons] at plain
      exact .plain plain.1 (ih plain.2)

/-! ## Values -/

/-- A member of an object, as it is written: its name between the quotes, with the blanks around
them, and its value with the blanks around it. -/
structure Member where
  front : List Char
  name : List Char
  back : List Char
  value : List Char
  blank_front : Gap front
  content : IsContent name
  blank_back : Gap back

namespace Member

/-- A member behind the opening quote of its name, with what comes behind it. -/
def opened (member : Member) (behind : List Char) : List Char :=
  member.name ++ '\x22' :: (member.back ++ ':' :: (member.value ++ behind))

def text (member : Member) : List Char :=
  member.front ++ '\x22' :: member.opened []

theorem text_append (member : Member) (behind : List Char) :
    member.text ++ behind = member.front ++ '\x22' :: member.opened behind := by
  simp only [text, opened, List.append_assoc, List.cons_append, List.append_nil]

/-- The name of a member spells characters. -/
def IsSpelled (member : Member) : Prop :=
  ∃ characters, Spells characters member.name

end Member

/-- Members one behind the other. -/
def joined (members : List Member) : List Char :=
  [','].intercalate (members.map Member.text)

theorem joined_singleton (member : Member) : joined [member] = member.text := by
  rw [joined, List.map_singleton, List.intercalate_singleton]

theorem joined_cons (member second : Member) (members : List Member) :
    joined (member :: second :: members) = member.text ++ ',' :: joined (second :: members) := by
  rw [joined, List.map_cons, List.map_cons, List.intercalate_cons_cons, List.append_assoc,
    List.singleton_append]
  rfl

/-- Members one behind the other in braces, without further blanks. -/
def objectText (members : List Member) : List Char :=
  '\x7b' :: (joined members ++ ['\x7d'])

theorem objectText_append (members : List Member) (behind : List Char) :
    objectText members ++ behind = '\x7b' :: (joined members ++ '\x7d' :: behind) := by
  rw [objectText, List.cons_append, List.append_assoc, List.singleton_append]

/-- An object is written with these members, whatever their values are. -/
inductive IsObject : List Member -> List Char -> Prop
  | empty {gap} (blank : Gap gap) : IsObject [] ('\x7b' :: (gap ++ ['\x7d']))
  | full {members} (some : members ≠ []) : IsObject members (objectText members)

/-- A text is an object with these members, and blanks around it. -/
def IsDocument (members : List Member) (text : List Char) : Prop :=
  ∃ object front back, IsObject members object ∧ Gap front ∧ Gap back ∧
    text = front ++ (object ++ back)

/-- Any members stand in some text. -/
theorem exists_isDocument (members : List Member) : ∃ text, IsDocument members text := by
  have written : ∃ object, IsObject members object := by
    cases members with
    | nil => exact ⟨_, .empty gap_nil⟩
    | cons member members => exact ⟨_, .full (List.cons_ne_nil member members)⟩
  rcases written with ⟨object, written⟩
  exact ⟨_, object, [], [], written, gap_nil, gap_nil, rfl⟩

theorem isDocument_objectText {members : List Member} (some : members ≠ []) :
    IsDocument members (objectText members) :=
  ⟨_, [], [], .full some, gap_nil, gap_nil, (List.append_nil _).symm⟩

/-- The word for a truth value. -/
def flagText : Bool -> List Char
  | true => ['t', 'r', 'u', 'e']
  | false => ['f', 'a', 'l', 's', 'e']

inductive IsValue : List Char -> Prop
  | word {text}
    (known : text ∈ [['n', 'u', 'l', 'l'], ['t', 'r', 'u', 'e'], ['f', 'a', 'l', 's', 'e']]) :
    IsValue text
  | number {text} (number : IsNumber text) : IsValue text
  | text {content} (between : IsContent content) : IsValue ('\x22' :: (content ++ ['\x22']))
  | emptyList {gap} (blank : Gap gap) : IsValue ('[' :: (gap ++ [']']))
  | list {elements : List (List Char)} (some : elements ≠ [])
    (each : forall element, element ∈ elements -> IsValue element) :
    IsValue ('[' :: ([','].intercalate elements ++ [']']))
  | object {members text} (object : IsObject members text)
    (each : forall member, member ∈ members -> IsValue member.value) : IsValue text
  | spaced {front value back} (before : Gap front) (held : IsValue value) (behind : Gap back) :
    IsValue (front ++ (value ++ back))

end Json
end MemoryProbe
