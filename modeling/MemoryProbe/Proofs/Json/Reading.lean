import Mathlib
import MemoryProbe.Proofs.Json.Skipping

namespace MemoryProbe
namespace Json

/-!
What is wanted of a text is read as it is written: the characters that a name spells, however they
are spelled, a whole number below 2^64, and a truth value.
-/

/-! ## Names -/

theorem readText_plain {character : Char} (plain : IsPlain character) (text : List Char) :
    readText (character :: text) = prepend character (readText text) := by
  rcases plain with ⟨shown, quote, escape⟩
  rw [readText, if_neg (Char.not_lt.mpr shown)] <;> simp_all

theorem readText_lettered {letter character : Char} (escape : (letter, character) ∈ escapes)
    (text : List Char) :
    readText ('\x5c' :: letter :: text) = prepend character (readText text) := by
  have letter_ne := letter_ne_of_mem escape
  rw [readText, escaped?_of_mem escape] <;> simp_all

section Halves

variable {unit : Nat}

theorem isTrailing_iff : isTrailing unit = true <-> 0xDC00 ≤ unit ∧ unit < 0xE000 := by
  simp only [isTrailing, Bool.and_eq_true, decide_eq_true_eq]
  omega

theorem isLeading_iff : isLeading unit = true <-> 0xD800 ≤ unit ∧ unit < 0xDC00 := by
  simp only [isLeading, Bool.and_eq_true, decide_eq_true_eq]
  omega

theorem isTrailing_of_leading (leads : isLeading unit = true) : isTrailing unit = false := by
  rw [Bool.eq_false_iff, Ne, isTrailing_iff]
  rw [isLeading_iff] at leads
  omega

end Halves

/-- An escape of a value that is no half of a pair stands for its character. -/
theorem readText_numbered {first second third fourth : Char} {unit : Nat}
    (shows : Text.ShowsNumber 16 [first, second, third, fourth] unit)
    (whole : isLeading unit = false ∧ isTrailing unit = false) (text : List Char) :
    readText ('\x5c' :: 'u' :: first :: second :: third :: fourth :: text) =
      prepend (Char.ofNat unit) (readText text) := by
  rw [readText, codeUnit?_of_shows shows]
  simp only [whole.1, whole.2]
  rfl

/-- The escapes of both halves of a pair stand for one character. -/
theorem readText_paired {first second third fourth fifth sixth seventh eighth : Char}
    {leading trailing : Nat} (upper : Text.ShowsNumber 16 [first, second, third, fourth] leading)
    (lower : Text.ShowsNumber 16 [fifth, sixth, seventh, eighth] trailing)
    (leads : isLeading leading = true) (trails : isTrailing trailing = true) (text : List Char) :
    readText ('\x5c' :: 'u' :: first :: second :: third :: fourth ::
        '\x5c' :: 'u' :: fifth :: sixth :: seventh :: eighth :: text) =
      prepend (joinHalves leading trailing) (readText text) := by
  rw [readText, codeUnit?_of_shows upper]
  simp only [leads, isTrailing_of_leading leads, codeUnit?_of_shows lower, trails]
  rfl

/-- A character of four digits is no half of a pair. -/
theorem notHalf_toNat (character : Char) :
    isLeading character.toNat = false ∧ isTrailing character.toNat = false := by
  have valid := character.valid
  change character.toNat < 0xD800 ∨ 0xDFFF < character.toNat ∧ character.toNat < 0x110000 at valid
  rw [Bool.eq_false_iff, Bool.eq_false_iff, Ne, Ne, isLeading_iff, isTrailing_iff]
  omega

theorem joinHalves_eq {leading trailing : Nat} (leads : isLeading leading = true)
    (trails : isTrailing trailing = true) :
    (joinHalves leading trailing).toNat =
      0x10000 + (leading - 0xD800) * 0x400 + (trailing - 0xDC00) := by
  rw [isLeading_iff] at leads
  rw [isTrailing_iff] at trails
  rw [joinHalves, Char.toNat_ofNat]
  exact if_pos (Or.inr (by omega))

theorem readText_append {characters content : List Char} (spells : Spells characters content)
    (rest : List Char) : readText (content ++ '\x22' :: rest) = .ok (characters, rest) := by
  induction spells with
  | nil => rfl
  | plain plain inner ih =>
      rw [List.cons_append, readText_plain plain, ih]
      rfl
  | lettered escape inner ih =>
      rw [List.cons_append, List.cons_append, readText_lettered escape, ih]
      rfl
  | @numbered character characters first second third fourth content shows inner ih =>
      simp only [List.cons_append]
      rw [readText_numbered shows (notHalf_toNat character), ih, Char.ofNat_toNat]
      rfl
  | paired upper lower leads trails value inner ih =>
      rw [<- isLeading_iff] at leads
      rw [<- isTrailing_iff] at trails
      have joined := joinHalves_eq leads trails
      rw [<- value, Char.toNat_inj] at joined
      simp only [List.cons_append]
      rw [readText_paired upper lower leads trails, ih, joined]
      rfl

/-- A content spells no two rows of characters. -/
theorem Spells.unique {first second content : List Char} (spells : Spells first content)
    (also : Spells second content) : first = second := by
  have same := (readText_append spells []).symm.trans (readText_append also [])
  injection same with same
  exact (Prod.mk.inj same).1

/-! ## Whole numbers -/

theorem isDigit_of_shows {character : Char} {digit : Nat} (small : digit < 10)
    (shows : Text.Shows character digit) :
    character.isDigit = true ∧ character.toNat - '0'.toNat = digit := by
  rcases shows with rfl | rfl <;> interval_cases digit <;> decide

theorem isDigits_of_shows {digits : List Char} {value : Nat}
    (shows : Text.ShowsNumber 10 digits value) : IsDigits digits := by
  have read := (Text.digits_iff_showsNumber (by decide)).mpr shows
  refine ⟨read.filled, fun character member => ?_⟩
  rcases Option.isSome_iff_exists.mp (read.isSome_of_mem member) with ⟨digit, known⟩
  rcases (Text.digitValue?_eq_some_iff (by decide)).mp known with ⟨small, shows⟩
  exact (isDigit_of_shows small shows).1

/-- The digits of a positive number do not start with zero. -/
theorem head?_toDigits_ne {value : Nat} (positive : 0 < value) :
    (Nat.toDigits 10 value).head? ≠ some '0' := by
  induction value using Nat.strong_induction_on with
  | _ value ih =>
      rw [Nat.toDigits_eq_if (by decide)]
      split
      · rename_i small
        interval_cases value <;> decide
      · rename_i large
        rw [List.head?_append_of_ne_nil _ Nat.toDigits_ne_nil]
        exact ih (value / 10) (Nat.div_lt_self positive (by decide)) (by omega)

/-- A number is a whole part as it is printed. -/
theorem isWhole_toString (value : Nat) :
    IsWhole (toString value).toList ∧ Text.ShowsNumber 10 (toString value).toList value := by
  have printed : (toString value).toList = Nat.toDigits 10 value := by
    change (String.ofList (Nat.toDigits 10 value)).toList = _
    exact String.toList_ofList
  have shows := Text.showsNumber_numeral (by decide : 1 < 10) (by decide) 0 value
  rw [Text.numeral, Text.padZeros, Nat.zero_sub, List.replicate_zero, List.nil_append] at shows
  rw [printed]
  refine ⟨⟨isDigits_of_shows shows, fun zero => ?_⟩, shows⟩
  rcases Nat.eq_zero_or_pos value with rfl | positive
  · rfl
  · exact absurd zero (head?_toDigits_ne positive)

theorem le_of_foldlM_appendDigit? {value total : Nat} {digits : List Char}
    (formed : digits.foldlM (Text.appendDigit? 10) value = some total) : value ≤ total := by
  induction digits generalizing value with
  | nil => exact (Option.some.inj formed).le
  | cons first digits ih =>
      rw [List.foldlM_cons, Option.bind_eq_bind, Option.bind_eq_some_iff] at formed
      rcases formed with ⟨longer, appended, formed⟩
      rw [Text.appendDigit?, Option.map_eq_some_iff] at appended
      rcases appended with ⟨digit, -, rfl⟩
      have grown := ih formed
      omega

/-- All digits of a word are kept: the value of some of them is no greater than that of all. -/
theorem keepDigits_of_lt {value total : Nat} {digits : List Char} (inside : total < UInt64.size)
    (formed : digits.foldlM (Text.appendDigit? 10) value = some total) :
    keepDigits value digits = (total, 0) := by
  induction digits generalizing value with
  | nil => rw [keepDigits, Option.some.inj formed]
  | cons first digits ih =>
      rw [List.foldlM_cons, Option.bind_eq_bind, Option.bind_eq_some_iff] at formed
      rcases formed with ⟨longer, appended, formed⟩
      rw [Text.appendDigit?, Option.map_eq_some_iff] at appended
      rcases appended with ⟨digit, known, rfl⟩
      have shown := (Text.digitValue?_eq_some_iff (by decide)).mp known
      have fits := Nat.lt_of_le_of_lt (le_of_foldlM_appendDigit? formed) inside
      rw [keepDigits, (isDigit_of_shows shown.1 shown.2).2]
      exact (if_pos fits).trans (ih formed)

section Words

variable {word : Word} {digits rest : List Char} (whole : IsWhole digits)
  (shows : Text.ShowsNumber 10 digits word.toNat) (ends : Ends rest)

include whole shows ends

theorem readNumber_append :
    readNumber false (digits ++ rest) = .ok (.natural word, rest) := by
  have stops := ends.startsWithDigit_eq
  have read : Text.digitsValue? 10 digits = some word.toNat :=
    Text.digitsValue?_eq_some_iff.mpr ((Text.digits_iff_showsNumber (by decide)).mpr shows)
  have formed : digits.foldlM (Text.appendDigit? 10) 0 = some word.toNat := by
    rwa [Text.digitsValue?, if_neg (mt List.isEmpty_iff.mp whole.filled)] at read
  have kept := keepDigits_of_lt word.toNat_lt formed
  have shown := takeWhile_isDigit_append whole.toIsDigits stops
  have behind := skipDigits_append whole.toIsDigits stops
  cases digits with
  | nil => exact absurd rfl whole.filled
  | cons first second =>
      have digit : first.isDigit = true := whole.digits first List.mem_cons_self
      have plain : ¬ (first = '0' ∧ startsWithDigit (second ++ rest) = true) := by
        rintro ⟨rfl, further⟩
        have alone := whole.plain rfl
        rw [(List.cons.inj alone).2, List.nil_append, stops] at further
        cases further
      rw [List.cons_append] at shown behind ⊢
      rw [readNumber, if_neg (by rw [digit]; decide), if_neg plain, shown, kept, behind]
      -- Nothing behind the digits makes them the first part of a longer number.
      dsimp only
      split
      · exact absurd rfl (ends '.' rfl).2.1
      · exact absurd rfl (ends 'e' rfl).2.2.1
      · exact absurd rfl (ends 'E' rfl).2.2.2
      · rw [if_neg (not_not.mpr rfl), UInt64.ofNat_toNat]
        rfl

theorem readWord_append (wanted : String) {gap : List Char} (blank : Gap gap) :
    readWord wanted (gap ++ (digits ++ rest)) = .ok (word, rest) := by
  have read := readNumber_append whole shows ends
  have starts := whole.startsWithDigit_append rest
  rw [readWord, skipBlanks_append blank, skipBlanks_of_digit starts]
  dsimp only
  generalize digits ++ rest = text at read starts ⊢
  split
  · cases starts
  · cases starts
  · rw [if_pos starts, read]

end Words

/-! ## Truth values -/

theorem readFlag_append (wanted : String) {gap : List Char} (blank : Gap gap) (flag : Bool)
    (rest : List Char) : readFlag wanted (gap ++ (flagText flag ++ rest)) = .ok (flag, rest) := by
  rw [readFlag, skipBlanks_append blank]
  cases flag <;> rfl

end Json
end MemoryProbe
