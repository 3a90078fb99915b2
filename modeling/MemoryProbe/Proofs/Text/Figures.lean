import Mathlib.Data.List.Forall2
import MemoryProbe.Address
import MemoryProbe.ProcessId
import MemoryProbe.Proofs.Text.Numerals

namespace MemoryProbe
namespace Text

/-!
Numbers as people write them.  A number is written in decimal, or in hexadecimal behind `0x`, with
letters of either case, perhaps with a plus sign and with zeros in front.  Which texts are such
numbers is said by the signs of the digits and their values alone, and a text is read exactly if
it is one of a value in range, with blanks around it perhaps.
-/

/-! ## Digits -/

/-- A character shows a digit, by the sign of the digit or by the capital letter of it. -/
def Shows (character : Char) (digit : Nat) : Prop :=
  character = Nat.digitChar digit ∨ character = (Nat.digitChar digit).toUpper

instance (character : Char) (digit : Nat) : Decidable (Shows character digit) :=
  inferInstanceAs (Decidable (_ ∨ _))

/-- Digits below ten stand from code 48 on, small letters from 97 on, and capitals from 65 on. -/
theorem shows_of_toNat {character : Char} {digit : Nat} (small : digit < 16)
    (place : (character.toNat = digit + 48 ∧ digit < 10) ∨
      (10 ≤ digit ∧ (character.toNat = digit + 87 ∨ character.toNat = digit + 55))) :
    Shows character digit := by
  unfold Shows
  rw [<- Char.toNat_inj, <- Char.toNat_inj]
  interval_cases digit <;> simp_all [Nat.digitChar]

theorem digitValue?_of_shows {character : Char} {digit : Nat} (small : digit < 16)
    (shows : Shows character digit) : digitValue? 16 character = some digit := by
  rcases shows with rfl | rfl <;> interval_cases digit <;> decide

/-- A character has a value in a radix exactly if it shows a digit below the radix. -/
theorem digitValue?_eq_some_iff {radix digit : Nat} {character : Char} (fits : radix ≤ 16) :
    digitValue? radix character = some digit <-> digit < radix ∧ Shows character digit := by
  constructor
  · intro known
    unfold digitValue? at known
    rw [Option.filter_eq_some_iff, decide_eq_true_eq] at known
    rcases known with ⟨value, inside⟩
    refine ⟨inside, shows_of_toNat (by omega) ?_⟩
    simp only [Char.le_def, UInt32.le_iff_toNat_le] at value
    change (if 48 ≤ character.toNat ∧ character.toNat ≤ 57 then some (character.toNat - 48)
      else if 97 ≤ character.toNat ∧ character.toNat ≤ 122 then some (character.toNat - 97 + 10)
      else if 65 ≤ character.toNat ∧ character.toNat ≤ 90 then some (character.toNat - 65 + 10)
      else none) = some digit at value
    split_ifs at value <;> cases value <;> omega
  · rintro ⟨inside, shows⟩
    have value := digitValue?_of_shows (by omega) shows
    unfold digitValue? at value ⊢
    rw [Option.filter_eq_some_iff] at value ⊢
    exact ⟨value.1, decide_eq_true inside⟩

/-- A character that shows a digit in hexadecimal. -/
def IsHexDigit (character : Char) : Prop :=
  ∃ digit, digit < 16 ∧ Shows character digit

theorem isHexDigit_iff {character : Char} :
    IsHexDigit character <-> (digitValue? 16 character).isSome = true := by
  simp only [Option.isSome_iff_exists, digitValue?_eq_some_iff (by decide : 16 ≤ 16), IsHexDigit]

instance (character : Char) : Decidable (IsHexDigit character) :=
  decidable_of_iff _ isHexDigit_iff.symm

/-- A digit is a byte of its own. -/
theorem IsHexDigit.toNat_lt {character : Char} (digit : IsHexDigit character) :
    character.toNat < 128 := by
  rcases digit with ⟨value, small, rfl | rfl⟩ <;> interval_cases value <;> decide

/-- A text is a number in a radix: it shows the digits of the number, the most significant digit
first, and there is at least one. -/
def ShowsNumber (radix : Nat) (text : List Char) (value : Nat) : Prop :=
  ∃ digits : List Nat, digits ≠ [] ∧
    List.Forall₂ (fun character digit => digit < radix ∧ Shows character digit) text digits ∧
    Nat.ofDigits radix digits.reverse = value

section Radix

variable {radix value : Nat} {text : List Char} (fits : radix ≤ 16)

include fits in
theorem digits_iff_showsNumber : Digits radix text value <-> ShowsNumber radix text value := by
  have places : forall digits : List Nat, text.map (digitValue? radix) = digits.map some <->
      List.Forall₂ (fun character digit => digit < radix ∧ Shows character digit) text digits := by
    intro digits
    rw [<- List.forall₂_eq_eq_eq, List.forall₂_map_left_iff, List.forall₂_map_right_iff]
    simp only [digitValue?_eq_some_iff fits]
  constructor
  · rintro ⟨filled, digits, same, value⟩
    refine ⟨digits, fun empty => filled ?_, (places digits).mp same, value⟩
    rwa [empty, List.map_nil, List.map_eq_nil_iff] at same
  · rintro ⟨digits, filled, shows, value⟩
    refine ⟨fun empty => filled ?_, digits, (places digits).mpr shows, value⟩
    rwa [empty, List.forall₂_nil_left_iff] at shows

include fits in
/-- The number is the same in capital letters. -/
theorem ShowsNumber.toUpper (shows : ShowsNumber radix text value) :
    ShowsNumber radix (text.map Char.toUpper) value := by
  rcases shows with ⟨digits, filled, each, value⟩
  refine ⟨digits, filled, ?_, value⟩
  rw [List.forall₂_map_left_iff]
  refine each.imp fun character digit shown => ⟨shown.1, Or.inr ?_⟩
  have small : digit < 16 := by omega
  rcases shown.2 with rfl | rfl
  · rfl
  · clear shown
    interval_cases digit <;> decide

theorem showsNumber_numeral (wide : 1 < radix) (fits : radix ≤ 16) (width value : Nat) :
    ShowsNumber radix (numeral radix width value) value :=
  (digits_iff_showsNumber fits).mp
    (digitsValue?_eq_some_iff.mp (digitsValue?_numeral wide fits width value))

end Radix

/-! ## Numbers -/

/-- A number as it is written: in decimal, or in hexadecimal behind a mark, in both cases perhaps
with a plus sign in front of the digits. -/
inductive Denotes : List Char -> Nat -> Prop
  | decimal {sign digits value} (plus : sign = [] ∨ sign = ['+'])
    (shows : ShowsNumber 10 digits value) : Denotes (sign ++ digits) value
  | hexadecimal {letter sign digits value} (mark : letter = 'x' ∨ letter = 'X')
    (plus : sign = [] ∨ sign = ['+']) (shows : ShowsNumber 16 digits value) :
    Denotes ('0' :: letter :: (sign ++ digits)) value

/-- A text names a number: the number is written in it, and there are only blanks around it. -/
def Names (text : List Char) (value : Nat) : Prop :=
  ∃ front written back, Blank front ∧ Blank back ∧ text = front ++ (written ++ back) ∧
    Denotes written value

variable {text : List Char} {value : Nat}

theorem writes_iff {radix : Nat} (fits : radix ≤ 16) :
    Writes radix text value <-> ∃ sign digits, (sign = [] ∨ sign = ['+']) ∧
      text = sign ++ digits ∧ ShowsNumber radix digits value := by
  unfold Writes
  simp only [digits_iff_showsNumber fits]

theorem ShowsNumber.solid {radix : Nat} (fits : radix ≤ 16) (shows : ShowsNumber radix text value) :
    Solid text := by
  intro character member
  rcases Option.isSome_iff_exists.mp
    (((digits_iff_showsNumber fits).mpr shows).isSome_of_mem member) with ⟨digit, known⟩
  rcases (digitValue?_eq_some_iff fits).mp known with ⟨inside, rfl | rfl⟩ <;>
  · have small : digit < 16 := by omega
    clear known inside member
    interval_cases digit <;> decide

/-- There is no blank in a number. -/
theorem Denotes.solid (denotes : Denotes text value) : Solid text := by
  have signed : forall {radix : Nat} {sign digits : List Char}, radix ≤ 16 ->
      (sign = [] ∨ sign = ['+']) -> ShowsNumber radix digits value -> Solid (sign ++ digits) := by
    intro radix sign digits fits plus shows character member
    rcases List.mem_append.mp member with front | digit
    · rcases plus with rfl | rfl
      · exact absurd front List.not_mem_nil
      · rw [List.mem_singleton.mp front]
        decide
    · exact shows.solid fits character digit
  cases denotes with
  | decimal plus shows => exact signed (by decide) plus shows
  | hexadecimal mark plus shows =>
      have rest := signed (by decide) plus shows
      unfold Solid at rest ⊢
      rw [List.forall_mem_cons, List.forall_mem_cons]
      refine ⟨by decide, ?_, rest⟩
      rcases mark with rfl | rfl <;> decide

/-- What a text names is what is written between its blanks. -/
theorem names_iff : Names text value <-> Denotes (trim text) value := by
  constructor
  · rintro ⟨front, written, back, before, behind, rfl, denotes⟩
    rw [trim_blank_append before, trim_append_blank behind, trim_of_solid denotes.solid]
    exact denotes
  · intro denotes
    rcases exists_trim text with ⟨front, back, before, behind, split⟩
    exact ⟨front, trim text, back, before, behind, split, denotes⟩

/-- The mark of hexadecimal is not part of a decimal number. -/
theorem not_writes_marked {letter : Char} {digits : List Char} (mark : letter = 'x' ∨ letter = 'X') :
    ¬ Writes 10 ('0' :: letter :: digits) value := by
  intro written
  have letters := written.plus_or_digit (List.mem_cons_of_mem _ List.mem_cons_self)
  rcases mark with rfl | rfl <;> exact absurd letters (by decide)

theorem denotes_iff :
    Denotes text value <-> Writes 10 text value ∨ ∃ letter digits,
      (letter = 'x' ∨ letter = 'X') ∧ text = '0' :: letter :: digits ∧ Writes 16 digits value := by
  simp only [writes_iff (by decide : 10 ≤ 16), writes_iff (by decide : 16 ≤ 16)]
  constructor
  · intro denotes
    cases denotes with
    | decimal plus shows => exact Or.inl ⟨_, _, plus, rfl, shows⟩
    | hexadecimal mark plus shows => exact Or.inr ⟨_, _, mark, rfl, _, _, plus, rfl, shows⟩
  · rintro (⟨sign, digits, plus, rfl, shows⟩ | ⟨letter, _, mark, rfl, sign, digits, plus, rfl, shows⟩)
    · exact .decimal plus shows
    · exact .hexadecimal mark plus shows

theorem denotes_marked_iff {letter : Char} {digits : List Char} (mark : letter = 'x' ∨ letter = 'X') :
    Denotes ('0' :: letter :: digits) value <-> Writes 16 digits value := by
  rw [denotes_iff]
  constructor
  · rintro (written | ⟨_, _, -, same, written⟩)
    · exact absurd written (not_writes_marked mark)
    · cases same
      exact written
  · exact fun written => Or.inr ⟨letter, digits, mark, rfl, written⟩

theorem Denotes.ne_nil (denotes : Denotes text value) : text ≠ [] := by
  rcases denotes_iff.mp denotes with ⟨sign, digits, -, rfl, read⟩ | ⟨letter, digits, -, rfl, -⟩
  · exact List.append_ne_nil_of_right_ne_nil _ read.filled
  · exact List.cons_ne_nil _ _

/-- A text denotes one number at most. -/
theorem Denotes.unique {other : Nat} (denotes : Denotes text value) (also : Denotes text other) :
    value = other := by
  have once : forall {radix : Nat} {digits : List Char}, Writes radix digits value ->
      Writes radix digits other -> value = other := by
    intro radix digits first second
    rw [<- dropPlus_digits_iff, <- digitsValue?_eq_some_iff] at first second
    exact Option.some.inj (first.symm.trans second)
  rcases denotes_iff.mp denotes with decimal | ⟨letter, digits, mark, rfl, written⟩
  · rcases denotes_iff.mp also with written | ⟨letter, digits, mark, rfl, -⟩
    · exact once decimal written
    · exact absurd decimal (not_writes_marked mark)
  · exact once written ((denotes_marked_iff mark).mp also)

/-- A text is read as a word exactly if it names the word. -/
theorem number?_eq_some_iff {word : Word} :
    number? text = some word <-> Names text word.toNat := by
  rw [names_iff]
  unfold number?
  split
  · rename_i digits shape
    rw [shape, denotes_marked_iff (Or.inl rfl), word?_eq_some_iff]
  · rename_i digits shape
    rw [shape, denotes_marked_iff (Or.inr rfl), word?_eq_some_iff]
  · rename_i small capital
    rw [word?_eq_some_iff, denotes_iff, or_iff_left]
    rintro ⟨letter, digits, rfl | rfl, same, -⟩
    · exact small digits same
    · exact capital digits same

theorem Denotes.names (denotes : Denotes text value) : Names text value := by
  refine ⟨[], text, [], nofun, nofun, ?_, denotes⟩
  rw [List.nil_append, List.append_nil]

theorem Names.ne_nil (names : Names text value) : text ≠ [] := by
  rintro rfl
  exact (names_iff.mp names).ne_nil rfl

/-- The blanks around a text do not change what it names. -/
theorem names_trim_iff : Names (trim text) value <-> Names text value := by
  constructor
  · rintro ⟨front, written, back, before, behind, inner, denotes⟩
    rcases exists_trim text with ⟨far, beyond, blank, empty, split⟩
    refine ⟨far ++ front, written, back ++ beyond, blank.append before, behind.append empty, ?_,
      denotes⟩
    rw [split, inner]
    simp only [List.append_assoc]
  · exact fun names => (names_iff.mp names).names

/-! ## Printed numbers -/

section Printed

variable (width value : Nat)

theorem denotes_toString : Denotes (toString value).toList value := by
  have digits : (toString value).toList = [] ++ numeral 10 0 value := by
    change (String.ofList (Nat.toDigits 10 value)).toList = _
    simp [numeral, padZeros]
  rw [digits]
  exact .decimal (Or.inl rfl) (showsNumber_numeral (by decide) (by decide) 0 value)

theorem toList_marked (digits : List Char) :
    ("0x" ++ String.ofList digits).toList = '0' :: 'x' :: ([] ++ digits) := by
  simp

theorem denotes_paddedHex : Denotes ("0x" ++ paddedHex width value).toList value := by
  rw [paddedHex, toList_marked]
  exact .hexadecimal (Or.inl rfl) (Or.inl rfl)
    (showsNumber_numeral (by decide) (by decide) width value)

theorem denotes_hex : Denotes ("0x" ++ hex value).toList value := by
  have padded := denotes_paddedHex 0 value
  rwa [paddedHex, padZeros, Nat.zero_sub, List.replicate_zero, List.nil_append] at padded

/-- Padding with zeros does not see the case of the letters. -/
theorem denotes_paddedUpperHex : Denotes ("0x" ++ paddedUpperHex width value).toList value := by
  have capitals : padZeros width ((hexDigits value).map Char.toUpper) =
      (numeral 16 width value).map Char.toUpper := by
    rw [numeral, padZeros, padZeros, List.map_append, List.map_replicate, List.length_map]
    rfl
  rw [paddedUpperHex, toList_marked, capitals]
  exact .hexadecimal (Or.inl rfl) (Or.inl rfl)
    ((showsNumber_numeral (by decide) (by decide) width value).toUpper (by decide))

end Printed

/-- A text is read as a process number exactly if it names the number. -/
theorem ofText?_eq_some_iff {pid : UInt32} :
    ProcessId.ofText? text = some pid <-> Names text pid.toNat := by
  unfold ProcessId.ofText?
  rw [Option.bind_eq_some_iff]
  constructor
  · rintro ⟨word, read, fits⟩
    rw [Option.ite_none_right_eq_some] at fits
    rcases fits with ⟨small, fits⟩
    cases fits
    rw [UInt64.toNat_toUInt32, Nat.mod_eq_of_lt small]
    exact number?_eq_some_iff.mp read
  · intro names
    have wide : pid.toUInt64.toNat = pid.toNat := UInt32.toNat_toUInt64 pid
    refine ⟨pid.toUInt64, number?_eq_some_iff.mpr (wide ▸ names), ?_⟩
    rw [if_pos (wide ▸ pid.toNat_lt), UInt32.toUInt32_toUInt64]

/-- A number that is too large for a process is refused. -/
theorem ofText?_of_names (names : Names text value) :
    ProcessId.ofText? text = if value < 2 ^ 32 then some (UInt32.ofNat value) else none := by
  split
  · rename_i small
    have same := UInt32.toNat_ofNat_of_lt' small
    exact ofText?_eq_some_iff.mpr (same.symm ▸ names)
  · rename_i large
    cases read : ProcessId.ofText? text with
    | none => rfl
    | some pid =>
        have same := (names_iff.mp (ofText?_eq_some_iff.mp read)).unique (names_iff.mp names)
        exact absurd (same ▸ pid.toNat_lt) large

/-- Exactly those texts are read that name a number below 2^64, blanks around it and zeros in
front of it left out of account.  So reading undoes every way in which a number is printed, and
process numbers are the numbers below 2^32. -/
theorem numbers_read_exactly :
    (forall text value, (number? text).map UInt64.toNat = some value <->
      Names text value ∧ value < 2 ^ 64) ∧
    (forall word : Word,
      number? (toString word.toNat).toList = some word ∧
      number? ("0x" ++ hex word.toNat).toList = some word ∧
      (forall width, number? ("0x" ++ paddedUpperHex width word.toNat).toList = some word) ∧
      number? (Address.mk word).text.toList = some word) ∧
    forall text value, (ProcessId.ofText? text).map UInt32.toNat = some value <->
      (number? text).map UInt64.toNat = some value ∧ value < 2 ^ 32 := by
  have words : forall text value, (number? text).map UInt64.toNat = some value <->
      Names text value ∧ value < 2 ^ 64 := by
    intro text value
    rw [Option.map_eq_some_iff]
    simp only [number?_eq_some_iff]
    constructor
    · rintro ⟨word, names, rfl⟩
      exact ⟨names, word.toNat_lt⟩
    · rintro ⟨names, small⟩
      have same := UInt64.toNat_ofNat_of_lt' small
      exact ⟨UInt64.ofNat value, same.symm ▸ names, same⟩
  refine ⟨words, fun word => ⟨?_, ?_, fun width => ?_, ?_⟩, fun text value => ?_⟩
  · exact number?_eq_some_iff.mpr (denotes_toString _).names
  · exact number?_eq_some_iff.mpr (denotes_hex _).names
  · exact number?_eq_some_iff.mpr (denotes_paddedUpperHex width _).names
  · exact number?_eq_some_iff.mpr (denotes_paddedHex 16 _).names
  · rw [words, Option.map_eq_some_iff]
    simp only [ofText?_eq_some_iff]
    constructor
    · rintro ⟨pid, names, rfl⟩
      have small := pid.toNat_lt
      exact ⟨⟨names, by omega⟩, small⟩
    · rintro ⟨⟨names, -⟩, small⟩
      have same := UInt32.toNat_ofNat_of_lt' small
      exact ⟨UInt32.ofNat value, same.symm ▸ names, same⟩

end Text
end MemoryProbe
