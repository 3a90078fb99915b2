import MemoryProbe.Proofs.Text.Figures
import MemoryProbe.Proofs.Text.Places
import MemoryProbe.Search.Pattern

namespace MemoryProbe

/-!
Bytes spelled in hexadecimal.  A text is cut into groups at its blanks, and a group may carry marks
in front of its digits.  The digits of all groups together spell the bytes, two digits for each, so
a group may end in the middle of a byte.  A text is read exactly if it is such a text, and what is
read are the bytes that its digits spell.
-/

namespace Pattern

open Text

/-! ## Pairs of digits -/

/-- Digits spell bytes: two for each byte, and of these the one for the upper half first. -/
inductive Spelled : List Char -> List UInt8 -> Prop
  | nil : Spelled [] []
  | cons {high low : Char} {byte : UInt8} {digits : List Char} {bytes : List UInt8}
    (upper : Shows high (byte.toNat / 16)) (lower : Shows low (byte.toNat % 16))
    (rest : Spelled digits bytes) : Spelled (high :: low :: digits) (byte :: bytes)

theorem Spelled.length_eq {digits : List Char} {bytes : List UInt8}
    (spelled : Spelled digits bytes) : digits.length = 2 * bytes.length := by
  induction spelled with
  | nil => rfl
  | cons upper lower rest ih =>
      rw [List.length_cons, List.length_cons, List.length_cons, ih]
      omega

theorem Spelled.isHexDigit {digits : List Char} {bytes : List UInt8}
    (spelled : Spelled digits bytes) :
    forall character, character ∈ digits -> IsHexDigit character := by
  induction spelled with
  | nil => exact nofun
  | @cons high low byte digits bytes upper lower rest ih =>
      have bound := byte.toNat_lt
      rw [List.forall_mem_cons, List.forall_mem_cons]
      exact ⟨⟨_, by omega, upper⟩, ⟨_, by omega, lower⟩, ih⟩

/-- A byte has a value as a digit exactly if its character shows the value. -/
theorem hexDigit?_eq_some_iff {byte value : UInt8} :
    hexDigit? byte = some value <-> value.toNat < 16 ∧ Shows (Char.ofUInt8 byte) value.toNat := by
  rw [hexDigit?, Option.map_eq_some_iff]
  simp only [digitValue?_eq_some_iff (by decide : 16 ≤ 16)]
  constructor
  · rintro ⟨digit, ⟨small, shows⟩, rfl⟩
    have same : (UInt8.ofNat digit).toNat = digit :=
      UInt8.toNat_ofNat_of_lt' (show digit < 256 by omega)
    rw [same]
    exact ⟨small, shows⟩
  · rintro ⟨small, shows⟩
    exact ⟨value.toNat, ⟨small, shows⟩, UInt8.ofNat_toNat⟩

theorem toNat_halves {upper lower : UInt8} (above : upper.toNat < 16) (below : lower.toNat < 16) :
    (upper * 16 + lower).toNat = upper.toNat * 16 + lower.toNat := by
  rw [UInt8.toNat_add, UInt8.toNat_mul]
  change (upper.toNat * 16 % 256 + lower.toNat) % 256 = _
  omega

theorem hexDigit?_of_shows {byte : UInt8} {digit : Nat} (small : digit < 16)
    (shows : Shows (Char.ofUInt8 byte) digit) : hexDigit? byte = some (UInt8.ofNat digit) := by
  have same : (UInt8.ofNat digit).toNat = digit :=
    UInt8.toNat_ofNat_of_lt' (show digit < 256 by omega)
  rw [hexDigit?_eq_some_iff, same]
  exact ⟨small, shows⟩

theorem halves_eq (byte : UInt8) :
    UInt8.ofNat (byte.toNat / 16) * 16 + UInt8.ofNat (byte.toNat % 16) = byte := by
  have bound := byte.toNat_lt
  have upper : (UInt8.ofNat (byte.toNat / 16)).toNat = byte.toNat / 16 :=
    UInt8.toNat_ofNat_of_lt' (show byte.toNat / 16 < 256 by omega)
  have lower : (UInt8.ofNat (byte.toNat % 16)).toNat = byte.toNat % 16 :=
    UInt8.toNat_ofNat_of_lt' (show byte.toNat % 16 < 256 by omega)
  rw [<- UInt8.toNat_inj, toNat_halves (by omega) (by omega), upper, lower]
  omega

/-- The first two of some digits are read as the halves of the first byte that they spell. -/
theorem Spelled.hexDigits {high low : UInt8} {rest : List Char} {bytes : List UInt8}
    (spelled : Spelled (Char.ofUInt8 high :: Char.ofUInt8 low :: rest) bytes) :
    ∃ byte others, bytes = byte :: others ∧ Spelled rest others ∧
      hexDigit? high = some (UInt8.ofNat (byte.toNat / 16)) ∧
      hexDigit? low = some (UInt8.ofNat (byte.toNat % 16)) := by
  cases spelled with
  | @cons _ _ byte _ others upper lower later =>
      have bound := byte.toNat_lt
      exact ⟨byte, others, rfl, later, hexDigit?_of_shows (by omega) upper,
        hexDigit?_of_shows (by omega) lower⟩

/-- Joining digits in pairs comes to the bytes that they spell. -/
theorem joinPairs_eq_ok_iff {index : Nat} {digits bytes : List UInt8} :
    joinPairs index digits = .ok bytes <-> Spelled (digits.map Char.ofUInt8) bytes := by
  fun_induction joinPairs index digits generalizing bytes with
  | case1 index high low rest upper lower below above ih =>
      constructor
      · intro joined
        rcases later : joinPairs (index + 2) rest with cause | others
        · rw [later] at joined
          cases joined
        · rw [later] at joined
          cases joined
          rw [hexDigit?_eq_some_iff] at above below
          have sum := toNat_halves above.1 below.1
          refine .cons ?_ ?_ (ih.mp later)
          · rw [sum, show (upper.toNat * 16 + lower.toNat) / 16 = upper.toNat by omega]
            exact above.2
          · rw [sum, show (upper.toNat * 16 + lower.toNat) % 16 = lower.toNat by omega]
            exact below.2
      · intro spelled
        rcases spelled.hexDigits with ⟨byte, others, rfl, later, first, second⟩
        cases above.symm.trans first
        cases below.symm.trans second
        rw [ih.mpr later, halves_eq]
        rfl
  | case2 index high low rest unknown =>
      refine ⟨nofun, fun spelled => ?_⟩
      rcases spelled.hexDigits with ⟨_, _, -, -, known, -⟩
      cases unknown.symm.trans known
  | case3 index high low rest upper unknown above =>
      refine ⟨nofun, fun spelled => ?_⟩
      rcases spelled.hexDigits with ⟨_, _, -, -, -, known⟩
      cases unknown.symm.trans known
  | case4 index digit => exact ⟨nofun, nofun⟩
  | case5 index =>
      constructor
      · intro joined
        cases joined
        exact .nil
      · intro spelled
        cases spelled
        rfl

/-- What is relied on of a decoder of hexadecimal digits. -/
structure DecodesHex (decode : List UInt8 -> Except HexError (List UInt8)) : Prop where
  /-- Pairs of digits are the bytes that they spell, and nothing else is any bytes. -/
  decode_eq_ok_iff : forall {digits bytes}, decode digits = .ok bytes <->
    Spelled (digits.map Char.ofUInt8) bytes
  /-- An odd number of digits is told as such. -/
  odd : forall {digits : List UInt8}, digits.length % 2 = 1 -> decode digits = .error .oddLength

theorem decodesHex_decodeHex : DecodesHex decodeHex where
  decode_eq_ok_iff := by
    intro digits bytes
    unfold decodeHex
    split
    · rename_i odd
      refine ⟨nofun, fun spelled => ?_⟩
      have long := spelled.length_eq
      rw [List.length_map] at long
      omega
    · exact joinPairs_eq_ok_iff
  odd := fun odd => if_pos odd

/-! ## Groups -/

/-- A group of digits, behind some marks that stand for no digit. -/
structure HexGroup where
  /-- How many marks of a small letter there are, which come first. -/
  smallMarks : Nat
  capitalMarks : Nat
  digits : List Char

def HexGroup.word (group : HexGroup) : List Char :=
  (List.replicate group.smallMarks ['0', 'x']).flatten ++
    ((List.replicate group.capitalMarks ['0', 'X']).flatten ++ group.digits)

/-- A text is some groups of hexadecimal digits with blanks between them. -/
structure Grouped (groups : List HexGroup) (text : List Char) : Prop where
  worded : Worded (groups.map HexGroup.word) text
  clean : forall group, group ∈ groups -> forall character, character ∈ group.digits ->
    IsHexDigit character

/-- The digits of all groups. -/
def digitsOf (groups : List HexGroup) : List Char :=
  groups.flatMap HexGroup.digits

/-- A word without its marks. -/
def unmarked (word : List Char) : List Char :=
  dropRepeated '0' 'X' (dropRepeated '0' 'x' word)

theorem unmarked_word {group : HexGroup}
    (clean : forall character, character ∈ group.digits -> IsHexDigit character) :
    unmarked group.word = group.digits := by
  have small : 'x' ∉ group.digits := fun member => absurd (clean 'x' member) (by decide)
  have capital : 'X' ∉ group.digits := fun member => absurd (clean 'X' member) (by decide)
  have behind : 'x' ∉ (List.replicate group.capitalMarks ['0', 'X']).flatten ++ group.digits := by
    rw [List.mem_append, not_or]
    refine ⟨fun member => ?_, small⟩
    rcases List.mem_flatten.mp member with ⟨mark, among, inside⟩
    rw [(List.mem_replicate.mp among).2] at inside
    exact absurd inside (by decide)
  rw [unmarked, HexGroup.word, dropRepeated_append, dropRepeated_of_not_mem behind,
    dropRepeated_append, dropRepeated_of_not_mem capital]

/-- Any word is a group in this sense, whatever stands behind its marks. -/
theorem exists_word_eq (word : List Char) :
    ∃ group : HexGroup, group.word = word ∧ group.digits = unmarked word := by
  rcases exists_dropRepeated '0' 'x' word with ⟨small, front⟩
  rcases exists_dropRepeated '0' 'X' (dropRepeated '0' 'x' word) with ⟨capital, behind⟩
  refine ⟨⟨small, capital, unmarked word⟩, ?_, rfl⟩
  rw [HexGroup.word, unmarked, <- behind, <- front]

section Texts

variable {text : List Char} {bytes : List UInt8} {groups : List HexGroup}

/-- The digits of a text are those of its groups. -/
theorem Grouped.hexDigitsOf_eq (grouped : Grouped groups text) :
    hexDigitsOf text = digitsOf groups := by
  have each : forall group, group ∈ groups -> unmarked group.word = group.digits :=
    fun group member => unmarked_word (grouped.clean group member)
  rw [hexDigitsOf, grouped.worded.words_eq, List.flatMap_map, digitsOf]
  exact List.flatMap_congr each

/-- A text is made of groups of digits if nothing else is left of its words without their
marks. -/
theorem exists_grouped
    (clean : forall character, character ∈ hexDigitsOf text -> IsHexDigit character) :
    ∃ groups, Grouped groups text := by
  choose groupOf whole digits using exists_word_eq
  refine ⟨(words text).map groupOf, ?_, fun group member character inside => clean character ?_⟩
  · have same : ((words text).map groupOf).map HexGroup.word = words text := by
      rw [List.map_map]
      exact List.map_id'' whole _
    rw [same]
    exact worded_iff.mpr rfl
  · rcases List.mem_map.mp member with ⟨word, among, rfl⟩
    rw [digits word] at inside
    exact List.mem_flatMap.mpr ⟨word, among, inside⟩

theorem Grouped.isHexDigit (grouped : Grouped groups text) :
    forall character, character ∈ digitsOf groups -> IsHexDigit character := by
  intro character member
  rcases List.mem_flatMap.mp member with ⟨group, among, inside⟩
  exact grouped.clean group among character inside

/-- A digit is one byte in the text, and its character is that of the byte. -/
theorem Grouped.map_ofUInt8 (grouped : Grouped groups text) :
    (utf8Bytes (digitsOf groups)).map Char.ofUInt8 = digitsOf groups :=
  map_ofUInt8_utf8Bytes (utf8Bytes_low fun character member =>
    (grouped.isHexDigit character member).toNat_lt)

theorem Grouped.length_utf8Bytes (grouped : Grouped groups text) :
    (utf8Bytes (digitsOf groups)).length = (digitsOf groups).length := by
  conv_rhs => rw [<- grouped.map_ofUInt8, List.length_map]

/-- What is decoded are the digits of the groups, one byte for each. -/
theorem Grouped.ofHexBy_eq (decode : List UInt8 -> Except HexError (List UInt8))
    (grouped : Grouped groups text) :
    ofHexBy decode text = if digitsOf groups = [] then .error .empty
      else decode (utf8Bytes (digitsOf groups)) := by
  have empty : (utf8Bytes (digitsOf groups)).isEmpty = true <-> digitsOf groups = [] := by
    rw [List.isEmpty_iff, <- List.length_eq_zero_iff, grouped.length_utf8Bytes,
      List.length_eq_zero_iff]
  unfold ofHexBy
  rw [grouped.hexDigitsOf_eq]
  simp only [empty]

section Decoders

variable {decode : List UInt8 -> Except HexError (List UInt8)} (decodes : DecodesHex decode)

include decodes

/-- Where some text is read, nothing but digits is left of its words without their marks. -/
theorem clean_of_ofHexBy (read : ofHexBy decode text = .ok bytes) :
    forall character, character ∈ hexDigitsOf text -> IsHexDigit character := by
  unfold ofHexBy at read
  dsimp only at read
  split_ifs at read
  have spelled := decodes.decode_eq_ok_iff.mp read
  have low : forall byte, byte ∈ utf8Bytes (hexDigitsOf text) -> byte < 0x80 := by
    intro byte member
    exact (spelled.isHexDigit _ (List.mem_map_of_mem member)).toNat_lt
  rw [map_ofUInt8_utf8Bytes low] at spelled
  exact spelled.isHexDigit

/-- A grouped text is read exactly as the bytes that its digits spell. -/
theorem Grouped.ofHexBy_eq_ok_iff (grouped : Grouped groups text) :
    ofHexBy decode text = .ok bytes <-> bytes ≠ [] ∧ Spelled (digitsOf groups) bytes := by
  rw [grouped.ofHexBy_eq]
  constructor
  · intro read
    split_ifs at read with empty
    have spelled := decodes.decode_eq_ok_iff.mp read
    rw [grouped.map_ofUInt8] at spelled
    refine ⟨fun none => empty (List.length_eq_zero_iff.mp ?_), spelled⟩
    rw [spelled.length_eq, none]
    rfl
  · rintro ⟨filled, spelled⟩
    have long := spelled.length_eq
    have some := List.length_pos_of_ne_nil filled
    rw [if_neg (List.ne_nil_of_length_pos (by omega)), decodes.decode_eq_ok_iff,
      grouped.map_ofUInt8]
    exact spelled

/-- Every decoder reads the same of the same text. -/
theorem ofHexBy_eq_ok_iff : ofHexBy decode text = .ok bytes <->
    bytes ≠ [] ∧ ∃ groups, Grouped groups text ∧ Spelled (digitsOf groups) bytes := by
  constructor
  · intro read
    rcases exists_grouped (clean_of_ofHexBy decodes read) with ⟨groups, grouped⟩
    rcases (grouped.ofHexBy_eq_ok_iff decodes).mp read with ⟨some, spelled⟩
    exact ⟨some, groups, grouped, spelled⟩
  · rintro ⟨some, groups, grouped, spelled⟩
    exact (grouped.ofHexBy_eq_ok_iff decodes).mpr ⟨some, spelled⟩

/-- A text that is not made of such groups is refused. -/
theorem exists_error_of_not_grouped (other : ¬ ∃ groups, Grouped groups text) :
    ∃ cause, ofHexBy decode text = .error cause := by
  rcases read : ofHexBy decode text with cause | bytes
  · exact ⟨cause, rfl⟩
  · exact absurd (exists_grouped (clean_of_ofHexBy decodes read)) other

end Decoders

/-- A character of a grouped text is a blank, belongs to a mark, or is a digit. -/
theorem Grouped.mem_cases (grouped : Grouped groups text) {character : Char}
    (member : character ∈ text) : isBlank character = true ∨ character = 'x' ∨ character = 'X' ∨
      IsHexDigit character := by
  have marks : forall {count : Nat} {letter : Char},
      character ∈ (List.replicate count ['0', letter]).flatten ->
        character = letter ∨ IsHexDigit character := by
    intro count letter inside
    rcases List.mem_flatten.mp inside with ⟨mark, among, inside⟩
    rw [(List.mem_replicate.mp among).2, List.mem_cons, List.mem_singleton] at inside
    rcases inside with rfl | same
    · exact Or.inr (by decide)
    · exact Or.inl same
  by_cases blank : isBlank character = true
  · exact Or.inl blank
  · rcases grouped.worded.exists_word member (Bool.eq_false_of_not_eq_true blank) with
      ⟨word, among, inside⟩
    rcases List.mem_map.mp among with ⟨group, within, rfl⟩
    rcases List.mem_append.mp inside with small | rest
    · rcases marks small with same | digit
      · exact Or.inr (Or.inl same)
      · exact Or.inr (Or.inr (Or.inr digit))
    · rcases List.mem_append.mp rest with capital | digit
      · rcases marks capital with same | digit
        · exact Or.inr (Or.inr (Or.inl same))
        · exact Or.inr (Or.inr (Or.inr digit))
      · exact Or.inr (Or.inr (Or.inr (grouped.clean group within character digit)))

end Texts

/-- However bytes are spelled in hexadecimal digits of either case, with blanks at the ends and
between any two digits and with a mark or several in front of each group, they are what is read, if
there are any.  Whatever is read is spelled by all the digits that are left without the blanks and
the marks: none is lost, moved or made up.  Without a digit, with an odd number of them, or with
another character anywhere, a text is refused. -/
theorem ofHex_reads_spelled :
    (forall text bytes, ofHex text = .ok bytes <->
      bytes ≠ [] ∧ ∃ groups, Grouped groups text ∧ Spelled (digitsOf groups) bytes) ∧
    (forall text groups bytes, Grouped groups text -> ofHex text = .ok bytes ->
      Spelled (digitsOf groups) bytes ∧ (digitsOf groups).length = 2 * bytes.length) ∧
    (forall text groups, Grouped groups text -> digitsOf groups = [] ->
      ofHex text = .error .empty) ∧
    (forall text groups, Grouped groups text -> (digitsOf groups).length % 2 = 1 ->
      ofHex text = .error .oddLength) ∧
    (forall text, (¬ ∃ groups, Grouped groups text) -> ∃ cause, ofHex text = .error cause) ∧
    forall text character, character ∈ text -> isBlank character = false -> character ≠ 'x' ->
      character ≠ 'X' -> ¬ IsHexDigit character -> ∃ cause, ofHex text = .error cause := by
  have decodes := decodesHex_decodeHex
  refine ⟨fun text bytes => ofHexBy_eq_ok_iff decodes, fun text groups bytes grouped read => ?_,
    fun text groups grouped none => ?_, fun text groups grouped odd => ?_,
    fun text other => exists_error_of_not_grouped decodes other,
    fun text character member filled small capital other => ?_⟩
  · have spelled := ((grouped.ofHexBy_eq_ok_iff decodes).mp read).2
    exact ⟨spelled, spelled.length_eq⟩
  · rw [ofHex, grouped.ofHexBy_eq, if_pos none]
  · have some : digitsOf groups ≠ [] := by
      intro none
      rw [none] at odd
      contradiction
    rw [ofHex, grouped.ofHexBy_eq, if_neg some]
    exact decodes.odd (grouped.length_utf8Bytes ▸ odd)
  · refine exists_error_of_not_grouped decodes fun ⟨groups, grouped⟩ => ?_
    rcases grouped.mem_cases member with blank | same | same | digit
    · exact Bool.false_ne_true (filled.symm.trans blank)
    · exact small same
    · exact capital same
    · exact other digit

/-- Digits in groups that end inside of a byte, of which the first and the last but one are
marked. -/
def raggedGroups : List HexGroup :=
  [⟨1, 0, ['d', 'E', 'a']⟩, ⟨0, 0, ['0']⟩, ⟨0, 1, ['0', 'b', 'E']⟩, ⟨0, 0, ['F']⟩]

/-- Such digits on a line, with a zero behind a mark. -/
def raggedText : List Char :=
  " 0xdEa\u30000\t0X0bE F".toList

theorem clean_of_all {groups : List HexGroup}
    (all : (digitsOf groups).all fun character => decide (IsHexDigit character)) :
    forall group, group ∈ groups -> forall character, character ∈ group.digits ->
      IsHexDigit character := by
  intro group member character inside
  rw [List.all_eq_true] at all
  exact of_decide_eq_true (all character (List.mem_flatMap.mpr ⟨group, member, inside⟩))

theorem grouped_raggedText : Grouped raggedGroups raggedText where
  worded := worded_iff.mpr (by decide)
  clean := clean_of_all (by decide)

/-- The bytes are read through the gaps in them; one more digit would be one too many. -/
theorem ofHex_reads_spelled_of_ragged :
    ofHex raggedText = .ok [0xDE, 0xA0, 0x0B, 0xEF] ∧
      ofHex (raggedText ++ [' ', '8']) = .error .oddLength := by
  refine ⟨?_, ?_⟩
  · exact (ofHex_reads_spelled.1 raggedText _).mpr ⟨by decide, raggedGroups, grouped_raggedText,
      .cons (by decide) (by decide) (.cons (by decide) (by decide) (.cons (by decide) (by decide)
        (.cons (by decide) (by decide) .nil)))⟩
  · exact ofHex_reads_spelled.2.2.2.1 _ (raggedGroups ++ [⟨0, 0, ['8']⟩])
      ⟨worded_iff.mpr (by decide), clean_of_all (by decide)⟩ (by decide)

end Pattern

end MemoryProbe
