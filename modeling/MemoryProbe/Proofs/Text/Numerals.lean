import Mathlib.Data.Nat.Digits.Defs
import Mathlib.Tactic.IntervalCases
import MemoryProbe.Proofs.Text.Cuts
import MemoryProbe.Text.Number

namespace MemoryProbe
namespace Text

/-!
Numbers that are written and read again.  The digits of a number in a radix of at most
sixteen have that number as their value, whatever zeros stand in front of them, and
neither a blank nor a sign is among them.  Any text is read exactly if it is digits of that
value, behind a plus sign perhaps.
-/

/-- A number in the digits of a radix, of which those above nine are lower-case letters, at
least as wide as given. -/
def numeral (radix width value : Nat) : List Char :=
  padZeros width (Nat.toDigits radix value)

/-- A digit is neither a blank nor a sign. -/
theorem digitChar_distinct {digit : Nat} (small : digit < 16) :
    isBlank (Nat.digitChar digit) = false ∧ Nat.digitChar digit ≠ '-' ∧
      Nat.digitChar digit ≠ '+' := by
  interval_cases digit <;> decide

section Radix

variable {radix : Nat} (wide : 1 < radix) (fits : radix ≤ 16)

include fits in
theorem digitValue?_digitChar {digit : Nat} (inside : digit < radix) :
    digitValue? radix (Nat.digitChar digit) = some digit := by
  have small : digit < 16 := by omega
  revert inside
  interval_cases digit <;> simp +contextual [digitValue?, Nat.digitChar]

include wide fits in
/-- Reading the digits of a number forms the number, most significant digit first. -/
theorem foldlM_toDigits (value : Nat) :
    (Nat.toDigits radix value).foldlM (appendDigit? radix) 0 = some value := by
  induction value using Nat.strong_induction_on with
  | _ value ih =>
      rw [Nat.toDigits_eq_if wide]
      split
      · rename_i small
        simp [appendDigit?, digitValue?_digitChar fits small]
      · rename_i large
        have last : value % radix < radix := Nat.mod_lt _ (by omega)
        rw [List.foldlM_append, ih (value / radix) (Nat.div_lt_self (by omega) wide)]
        simp [appendDigit?, digitValue?_digitChar fits last, Nat.div_add_mod']

include wide in
theorem exists_digit_of_mem_toDigits (value : Nat) {character : Char}
    (member : character ∈ Nat.toDigits radix value) :
    ∃ digit, digit < radix ∧ character = Nat.digitChar digit := by
  induction value using Nat.strong_induction_on with
  | _ value ih =>
      rw [Nat.toDigits_eq_if wide] at member
      split at member
      · rename_i small
        exact ⟨value, small, List.mem_singleton.mp member⟩
      · rename_i large
        rcases List.mem_append.mp member with front | last
        · exact ih (value / radix) (Nat.div_lt_self (by omega) wide) front
        · exact ⟨value % radix, Nat.mod_lt _ (by omega), List.mem_singleton.mp last⟩

include wide fits in
theorem foldlM_zeros (count : Nat) :
    (List.replicate count '0').foldlM (appendDigit? radix) 0 = some 0 := by
  have zero : digitValue? radix '0' = some 0 :=
    digitValue?_digitChar fits (by omega : 0 < radix)
  induction count with
  | zero => rfl
  | succ count ih => simpa [List.replicate_succ, appendDigit?, zero] using ih

section Numeral

variable (width value : Nat)

theorem numeral_ne_nil : numeral radix width value ≠ [] := by
  simp [numeral, padZeros, Nat.toDigits_ne_nil]

include wide fits

theorem digitsValue?_numeral : digitsValue? radix (numeral radix width value) = some value := by
  have filled : (numeral radix width value).isEmpty = false := by
    simpa using numeral_ne_nil width value
  rw [digitsValue?, filled, numeral, padZeros, List.foldlM_append, foldlM_zeros wide fits]
  exact foldlM_toDigits wide fits value

theorem distinct_of_mem_numeral {character : Char}
    (member : character ∈ numeral radix width value) :
    isBlank character = false ∧ character ≠ '-' ∧ character ≠ '+' := by
  rcases List.mem_append.mp member with zero | digit
  · rw [(List.mem_replicate.mp zero).2]
    decide
  · rcases exists_digit_of_mem_toDigits wide value digit with ⟨digit, inside, rfl⟩
    exact digitChar_distinct (by omega)

theorem solid_numeral : Solid (numeral radix width value) :=
  fun _ member => (distinct_of_mem_numeral wide fits width value member).1

end Numeral

theorem dropPlus_of_not_mem {text : List Char} (unsigned : '+' ∉ text) :
    dropPlus text = text := by
  unfold dropPlus
  split
  · simp at unsigned
  · rfl

include wide fits in
/-- A number that is written in digits, with any zeros in front, is read back exactly if it is
in range. -/
theorem unsigned?_numeral_eq (width value bound : Nat) :
    unsigned? bound radix (numeral radix width value) =
      if value < bound then some value else none := by
  have unsigned : '+' ∉ numeral radix width value := fun member =>
    (distinct_of_mem_numeral wide fits width value member).2.2 rfl
  rw [unsigned?, dropPlus_of_not_mem unsigned, digitsValue?_numeral wide fits, Option.filter_some]
  simp only [decide_eq_true_eq]

include wide fits in
theorem unsigned?_numeral (width : Nat) {value bound : Nat} (inside : value < bound) :
    unsigned? bound radix (numeral radix width value) = some value := by
  rw [unsigned?_numeral_eq wide fits, if_pos inside]

include wide fits in
theorem word?_numeral (width : Nat) (value : Word) :
    word? radix (numeral radix width value.toNat) = some value := by
  rw [word?, unsigned?_numeral wide fits width value.toNat_lt, Option.map_some,
    UInt64.ofNat_toNat]

end Radix

theorem natural32?_numeral_eq (width value : Nat) :
    natural32? (numeral 10 width value) =
      if value < UInt32.size then some (UInt32.ofNat value) else none := by
  rw [natural32?, unsigned?_numeral_eq (by decide) (by decide)]
  split <;> rfl

theorem natural32?_numeral (width : Nat) (value : UInt32) :
    natural32? (numeral 10 width value.toNat) = some value := by
  rw [natural32?_numeral_eq, if_pos value.toNat_lt, UInt32.ofNat_toNat]

/-- A number in decimal digits, behind a minus sign if it is below zero. -/
def signed (value : Int) : List Char :=
  if value < 0 then '-' :: numeral 10 0 value.natAbs else numeral 10 0 value.natAbs

theorem signed_ne_nil (value : Int) : signed value ≠ [] := by
  unfold signed
  split
  · exact List.cons_ne_nil _ _
  · exact numeral_ne_nil _ _

theorem mem_signed {value : Int} {character : Char} (member : character ∈ signed value) :
    character = '-' ∨ character ∈ numeral 10 0 value.natAbs := by
  unfold signed at member
  split at member
  · exact List.mem_cons.mp member
  · exact Or.inr member

theorem solid_signed (value : Int) : Solid (signed value) := by
  intro character member
  rcases mem_signed member with rfl | digit
  · decide
  · exact solid_numeral (by decide) (by decide) _ _ character digit

/-- The value of a signed number is that of its digits, which a minus sign turns. -/
theorem signed_cases (value : Int) :
    (value < 0 ∧ signed value = '-' :: numeral 10 0 value.natAbs ∧ -(value.natAbs : Int) = value) ∨
      (signed value = numeral 10 0 value.natAbs ∧ (value.natAbs : Int) = value) := by
  unfold signed
  split
  · exact Or.inl ⟨‹_›, rfl, by omega⟩
  · exact Or.inr ⟨rfl, by omega⟩

/-- A signed number that is written in digits is read back exactly if it is in range. -/
theorem integer32?_signed_eq (value : Int) :
    integer32? (signed value) =
      if -2147483648 ≤ value ∧ value ≤ 2147483647 then some value else none := by
  have digits := digitsValue?_numeral (by decide : 1 < 10) (by decide) 0 value.natAbs
  have signs : forall sign, sign ∈ numeral 10 0 value.natAbs -> sign ≠ '-' ∧ sign ≠ '+' :=
    fun sign member => (distinct_of_mem_numeral (by decide) (by decide) _ _ member).2
  have filtered : (some value).filter
      (fun value => decide (-2147483648 ≤ value ∧ value ≤ 2147483647)) =
        if -2147483648 ≤ value ∧ value ≤ 2147483647 then some value else none := by
    simp only [Option.filter_some, decide_eq_true_eq]
  rw [<- filtered]
  rcases signed_cases value with ⟨-, written, size⟩ | ⟨written, size⟩
  · rw [written, integer32?, digits]
    exact congrArg (fun value => Option.filter _ (some value)) size
  · have plain : dropPlus (numeral 10 0 value.natAbs) = numeral 10 0 value.natAbs :=
      dropPlus_of_not_mem fun member => (signs '+' member).2 rfl
    rw [written]
    unfold integer32?
    split
    · rename_i rest same
      exact absurd rfl (signs '-' (by rw [same]; exact List.mem_cons_self)).1
    · rw [plain, digits]
      exact congrArg (fun value => Option.filter _ (some value)) size

/-- There is no other character in a number than letters and digits. -/
theorem isAlphanum_of_mem_numeral {radix : Nat} (wide : 1 < radix) (fits : radix ≤ 16)
    (width value : Nat) {character : Char} (member : character ∈ numeral radix width value) :
    character.isAlphanum = true := by
  rcases List.mem_append.mp member with zero | digit
  · rw [(List.mem_replicate.mp zero).2]
    decide
  · rcases exists_digit_of_mem_toDigits wide value digit with ⟨place, inside, rfl⟩
    have small : place < 16 := by omega
    clear member digit inside
    interval_cases place <;> decide

/-! ## Any text -/

/-- Digits that have a value in a radix, the most significant digit first. -/
structure Digits (radix : Nat) (digits : List Char) (value : Nat) : Prop where
  filled : digits ≠ []
  places : ∃ values : List Nat, digits.map (digitValue? radix) = values.map some ∧
    Nat.ofDigits radix values.reverse = value

/-- A number without a sign, or behind one plus sign. -/
def Writes (radix : Nat) (text : List Char) (value : Nat) : Prop :=
  ∃ sign digits, (sign = [] ∨ sign = ['+']) ∧ text = sign ++ digits ∧ Digits radix digits value

section Reading

variable {radix value : Nat} {text digits : List Char}

theorem foldlM_appendDigit?_iff (initial : Nat) :
    digits.foldlM (appendDigit? radix) initial = some value <->
      ∃ values : List Nat, digits.map (digitValue? radix) = values.map some ∧
        values.foldl (fun before digit => before * radix + digit) initial = value := by
  induction digits generalizing initial with
  | nil =>
      constructor
      · intro read
        exact ⟨[], rfl, Option.some.inj read⟩
      · rintro ⟨values, same, formed⟩
        rw [List.map_nil, eq_comm, List.map_eq_nil_iff] at same
        subst same
        exact congrArg some formed
  | cons first digits ih =>
      rw [List.foldlM_cons, Option.bind_eq_bind, Option.bind_eq_some_iff]
      simp only [ih, appendDigit?, Option.map_eq_some_iff]
      constructor
      · rintro ⟨next, ⟨digit, known, rfl⟩, values, same, formed⟩
        exact ⟨digit :: values, by rw [List.map_cons, List.map_cons, known, same], formed⟩
      · rintro ⟨values, same, formed⟩
        cases values with
        | nil => cases same
        | cons digit values =>
            rw [List.map_cons, List.map_cons, List.cons.injEq] at same
            exact ⟨_, ⟨digit, same.1, rfl⟩, values, same.2, formed⟩

theorem digitsValue?_eq_some_iff :
    digitsValue? radix digits = some value <-> Digits radix digits value := by
  have formed : forall values : List Nat,
      values.foldl (fun before digit => before * radix + digit) 0 =
        Nat.ofDigits radix values.reverse := by
    intro values
    rw [Nat.ofDigits_eq_foldr, List.foldr_reverse]
    congr 1
    funext before digit
    rw [Nat.mul_comm, Nat.add_comm]
    rfl
  unfold digitsValue?
  by_cases empty : digits = []
  · rw [if_pos (List.isEmpty_iff.mpr empty)]
    exact ⟨nofun, fun read => absurd empty read.filled⟩
  · rw [if_neg (mt List.isEmpty_iff.mp empty), foldlM_appendDigit?_iff]
    simp only [formed]
    exact ⟨fun places => ⟨empty, places⟩, Digits.places⟩

theorem Digits.isSome_of_mem (read : Digits radix digits value) {character : Char}
    (member : character ∈ digits) : (digitValue? radix character).isSome = true := by
  rcases read.places with ⟨values, same, -⟩
  have among := List.mem_map_of_mem (f := digitValue? radix) member
  rw [same] at among
  rcases List.mem_map.mp among with ⟨digit, -, known⟩
  rw [<- known]
  rfl

/-- A number is made of digits, behind a plus sign perhaps. -/
theorem Writes.plus_or_digit (written : Writes radix text value) {character : Char}
    (member : character ∈ text) :
    character = '+' ∨ (digitValue? radix character).isSome = true := by
  rcases written with ⟨sign, digits, plus, rfl, places⟩
  rcases List.mem_append.mp member with front | digit
  · rcases plus with rfl | rfl
    · exact absurd front List.not_mem_nil
    · exact Or.inl (List.mem_singleton.mp front)
  · exact Or.inr (places.isSome_of_mem digit)

/-- A number is read exactly if it is written so. -/
theorem dropPlus_digits_iff :
    Digits radix (dropPlus text) value <-> Writes radix text value := by
  constructor
  · intro read
    unfold dropPlus at read
    split at read
    · exact ⟨['+'], _, Or.inr rfl, rfl, read⟩
    · exact ⟨[], text, Or.inl rfl, rfl, read⟩
  · rintro ⟨sign, digits, rfl | rfl, written, read⟩
    · have unsigned : '+' ∉ digits := by
        intro member
        have digit := read.isSome_of_mem member
        simp [digitValue?] at digit
      rw [written, List.nil_append, dropPlus_of_not_mem unsigned]
      exact read
    · rw [written]
      exact read

theorem unsigned?_eq_some_iff {bound : Nat} :
    unsigned? bound radix text = some value <-> Writes radix text value ∧ value < bound := by
  rw [unsigned?, Option.filter_eq_some_iff, digitsValue?_eq_some_iff, dropPlus_digits_iff,
    decide_eq_true_eq]

theorem word?_eq_some_iff {word : Word} :
    word? radix text = some word <-> Writes radix text word.toNat := by
  rw [word?, Option.map_eq_some_iff]
  simp only [unsigned?_eq_some_iff]
  constructor
  · rintro ⟨value, ⟨written, inside⟩, rfl⟩
    rwa [UInt64.toNat_ofNat_of_lt' inside]
  · intro written
    exact ⟨_, ⟨written, word.toNat_lt⟩, UInt64.ofNat_toNat⟩

end Reading

end Text
end MemoryProbe
