import MemoryProbe.Proofs.Text.Cuts
import MemoryProbe.Text.Utf8

namespace MemoryProbe
namespace Text

/-!
Cuts before and after decoding.  The bytes of a text are the groups of its characters one
after the other, and a byte below `0x80` is a group of its own, so line feeds and carriage
returns are the same marks in the bytes and in the text.  It makes no difference whether a
text is cut into lines before it is decoded or afterwards, and bytes that are followed by
such a byte are a text by themselves or none.  What is encoded is decoded again.
-/

/-- The bytes of one character: one byte below `0x80`, or none below. -/
structure Letter (group : List UInt8) (character : Char) : Prop where
  decodes : forall rest, utf8Decode? (group ++ rest) =
    (utf8Decode? rest).map fun text => character :: text
  marks : (∃ byte, byte < 0x80 ∧ group = [byte] ∧ character = Char.ofUInt8 byte) ∨
    (group ≠ [] ∧ (forall byte, byte ∈ group -> 0x80 ≤ byte) ∧ 0x80 ≤ character.toNat)

/-- The bytes of a text, character by character. -/
inductive Spells : List UInt8 -> List Char -> Prop where
  | nil : Spells [] []
  | cons {group rest : List UInt8} {character : Char} {text : List Char}
    (letter : Letter group character) (spells : Spells rest text) :
    Spells (group ++ rest) (character :: text)

theorem Spells.decodes {bytes : List UInt8} {text : List Char} (spells : Spells bytes text) :
    utf8Decode? bytes = some text := by
  induction spells with
  | nil => rfl
  | cons letter spells ih => rw [letter.decodes, ih, Option.map_some]

theorem continuation_le {byte : UInt8} {low : Nat} (tail : continuation? byte = some low) :
    0x80 ≤ byte := by
  unfold continuation? at tail
  split at tail
  · rename_i bounds
    exact bounds.1
  · contradiction

theorem le_toNat_of_scalar {least codePoint : Nat} {character : Char}
    (scalar : scalar? least codePoint = some character) : least ≤ character.toNat := by
  by_cases bounds : least ≤ codePoint ∧ codePoint.isValidChar
  · rw [scalar?, dif_pos bounds] at scalar
    cases scalar
    exact bounds.1
  · rw [scalar?, dif_neg bounds] at scalar
    contradiction

section Groups

variable {first second third fourth : UInt8} (rest : List UInt8)

theorem utf8Decode?_one (low : first < 0x80) :
    utf8Decode? (first :: rest) =
      (utf8Decode? rest).map fun text => Char.ofUInt8 first :: text := by
  rw [utf8Decode?.eq_def]
  exact if_pos low

theorem utf8Decode?_two (high : ¬ first < 0x80) (two : first < 0xE0) :
    utf8Decode? (first :: second :: rest) =
      ((continuation? second).bind fun low =>
        scalar? 0x80 ((first.toNat - 0xC0) * 0x40 + low)).bind fun character =>
          (utf8Decode? rest).map fun text => character :: text := by
  rw [utf8Decode?.eq_def]
  dsimp only
  rw [if_neg high, if_pos two, Option.bind_assoc]
  rfl

theorem utf8Decode?_three (high : ¬ first < 0x80) (two : ¬ first < 0xE0) (three : first < 0xF0) :
    utf8Decode? (first :: second :: third :: rest) =
      ((continuation? second).bind fun middle =>
        (continuation? third).bind fun low =>
          scalar? 0x800 ((first.toNat - 0xE0) * 0x1000 + middle * 0x40 + low)).bind
        fun character => (utf8Decode? rest).map fun text => character :: text := by
  rw [utf8Decode?.eq_def]
  dsimp only
  rw [if_neg high, if_neg two, if_pos three]
  simp only [Option.bind_assoc]
  rfl

theorem utf8Decode?_four (high : ¬ first < 0x80) (two : ¬ first < 0xE0)
    (three : ¬ first < 0xF0) :
    utf8Decode? (first :: second :: third :: fourth :: rest) =
      ((continuation? second).bind fun upper =>
        (continuation? third).bind fun middle =>
          (continuation? fourth).bind fun low =>
            scalar? 0x10000
              ((first.toNat - 0xF0) * 0x40000 + upper * 0x1000 + middle * 0x40 + low)).bind
        fun character => (utf8Decode? rest).map fun text => character :: text := by
  rw [utf8Decode?.eq_def]
  dsimp only
  rw [if_neg high, if_neg two, if_neg three]
  simp only [Option.bind_assoc]
  rfl

end Groups

/-- Several bytes that come to one character are its group. -/
theorem Letter.of_group {group : List UInt8} {scalar : Option Char} {character : Char}
    (several : group ≠ [])
    (decodes : forall rest, utf8Decode? (group ++ rest) =
      scalar.bind fun character => (utf8Decode? rest).map fun text => character :: text)
    (known : scalar = some character) (high : forall byte, byte ∈ group -> 0x80 ≤ byte)
    (large : 0x80 ≤ character.toNat) : Letter group character := by
  refine ⟨fun rest => ?_, Or.inr ⟨several, high, large⟩⟩
  rw [decodes, known, Option.bind_some]

theorem Spells.of_group {group rest : List UInt8} {text : List Char} {scalar : Option Char}
    (several : group ≠ [])
    (decodes : forall rest, utf8Decode? (group ++ rest) =
      scalar.bind fun character => (utf8Decode? rest).map fun text => character :: text)
    (high : forall character, scalar = some character ->
      (forall byte, byte ∈ group -> 0x80 ≤ byte) ∧ 0x80 ≤ character.toNat)
    (goesOn : forall text, utf8Decode? rest = some text -> Spells rest text)
    (decoded : utf8Decode? (group ++ rest) = some text) : Spells (group ++ rest) text := by
  rw [decodes] at decoded
  rcases Option.bind_eq_some_iff.mp decoded with ⟨character, known, decoded⟩
  rcases Option.map_eq_some_iff.mp decoded with ⟨tail, later, rfl⟩
  rcases high character known with ⟨marks, large⟩
  exact .cons (Letter.of_group several decodes known marks large) (goesOn tail later)

/-- Bytes that are a text are the bytes of its characters. -/
theorem spells_of_decode {bytes : List UInt8} {text : List Char}
    (decoded : utf8Decode? bytes = some text) : Spells bytes text := by
  induction bytes using utf8Decode?.induct generalizing text with
  | case1 =>
      cases decoded
      exact .nil
  | case2 first rest low ih =>
      rw [utf8Decode?_one rest low] at decoded
      rcases Option.map_eq_some_iff.mp decoded with ⟨tail, later, rfl⟩
      exact .cons ⟨fun rest => utf8Decode?_one rest low, Or.inl ⟨first, low, rfl, rfl⟩⟩ (ih later)
  | case3 first high => simp [utf8Decode?, high] at decoded
  | case4 first high second rest two ih =>
      refine @Spells.of_group [first, second] rest text
        ((continuation? second).bind fun low =>
          scalar? 0x80 ((first.toNat - 0xC0) * 0x40 + low))
        (List.cons_ne_nil _ _) (fun rest => utf8Decode?_two rest high two)
        (fun character known => ?_) (fun _ later => ih later) decoded
      rcases Option.bind_eq_some_iff.mp known with ⟨low, tail, scalar⟩
      have first_high : 0x80 ≤ first := UInt8.not_lt.mp high
      simp [first_high, continuation_le tail, le_toNat_of_scalar scalar]
  | case5 first high second three => simp [utf8Decode?, high, three] at decoded
  | case6 first high second two third rest three ih =>
      refine @Spells.of_group [first, second, third] rest text
        ((continuation? second).bind fun middle =>
          (continuation? third).bind fun low =>
            scalar? 0x800 ((first.toNat - 0xE0) * 0x1000 + middle * 0x40 + low))
        (List.cons_ne_nil _ _) (fun rest => utf8Decode?_three rest high two three)
        (fun character known => ?_) (fun _ later => ih later) decoded
      rcases Option.bind_eq_some_iff.mp known with ⟨middle, second_tail, known⟩
      rcases Option.bind_eq_some_iff.mp known with ⟨low, third_tail, scalar⟩
      have first_high : 0x80 ≤ first := UInt8.not_lt.mp high
      have large := le_toNat_of_scalar scalar
      simp only [List.mem_cons, List.not_mem_nil, or_false, forall_eq_or_imp, forall_eq,
        first_high, continuation_le second_tail, continuation_le third_tail, true_and]
      omega
  | case7 first high second two third three =>
      simp [utf8Decode?, high, two, three] at decoded
  | case8 first high second two third three fourth rest ih =>
      refine @Spells.of_group [first, second, third, fourth] rest text
        ((continuation? second).bind fun upper =>
          (continuation? third).bind fun middle =>
            (continuation? fourth).bind fun low =>
              scalar? 0x10000
                ((first.toNat - 0xF0) * 0x40000 + upper * 0x1000 + middle * 0x40 + low))
        (List.cons_ne_nil _ _) (fun rest => utf8Decode?_four rest high two three)
        (fun character known => ?_) (fun _ later => ih later) decoded
      rcases Option.bind_eq_some_iff.mp known with ⟨upper, second_tail, known⟩
      rcases Option.bind_eq_some_iff.mp known with ⟨middle, third_tail, known⟩
      rcases Option.bind_eq_some_iff.mp known with ⟨low, fourth_tail, scalar⟩
      have first_high : 0x80 ≤ first := UInt8.not_lt.mp high
      have large := le_toNat_of_scalar scalar
      simp only [List.mem_cons, List.not_mem_nil, or_false, forall_eq_or_imp, forall_eq,
        first_high, continuation_le second_tail, continuation_le third_tail,
        continuation_le fourth_tail, true_and]
      omega

/-! ## Marks -/

section Marks

variable {group bytes : List UInt8} {character : Char} {text : List Char}

/-- A mark below `0x80` is a group of its own, or it has nothing to do with the character. -/
theorem Letter.mark_cases (letter : Letter group character) {mark : UInt8} (low : mark < 0x80) :
    (group = [mark] ∧ character = Char.ofUInt8 mark) ∨
      (mark ∉ group ∧ character ≠ Char.ofUInt8 mark) := by
  have number : forall byte : UInt8, (Char.ofUInt8 byte).toNat = byte.toNat := fun _ => rfl
  rcases letter.marks with ⟨byte, -, rfl, rfl⟩ | ⟨-, high, large⟩
  · by_cases same : byte = mark
    · exact Or.inl ⟨congrArg (fun byte => [byte]) same, congrArg Char.ofUInt8 same⟩
    · refine Or.inr ⟨fun member => same (List.mem_singleton.mp member).symm, fun equal => same ?_⟩
      have numbers := congrArg Char.toNat equal
      rw [number, number] at numbers
      exact UInt8.toNat_inj.mp numbers
  · refine Or.inr ⟨fun member => UInt8.not_le.mpr low (high mark member), fun equal => ?_⟩
    have small : mark.toNat < 128 := UInt8.lt_iff_toNat_lt.mp low
    rw [equal, number] at large
    omega

theorem Letter.ne_nil (letter : Letter group character) : group ≠ [] := by
  rcases letter.marks with ⟨byte, -, rfl, -⟩ | ⟨several, -, -⟩
  · exact List.cons_ne_nil _ _
  · exact several

theorem Spells.eq_nil_iff (spells : Spells bytes text) : bytes = [] <-> text = [] := by
  cases spells with
  | nil => exact ⟨fun _ => rfl, fun _ => rfl⟩
  | cons letter later => simp [letter.ne_nil]

/-- A low mark is among the bytes if it is in the text. -/
theorem Spells.mem_of_mem (spells : Spells bytes text) {mark : UInt8} (low : mark < 0x80)
    (member : Char.ofUInt8 mark ∈ text) : mark ∈ bytes := by
  induction spells with
  | nil => exact absurd member List.not_mem_nil
  | @cons group rest character text letter later ih =>
      rcases List.mem_cons.mp member with same | behind
      · rcases letter.mark_cases low with ⟨rfl, -⟩ | ⟨-, other⟩
        · exact List.mem_append_left _ (List.mem_singleton.mpr rfl)
        · exact absurd same.symm other
      · exact List.mem_append_right _ (ih behind)

/-- The bytes end with a low mark exactly if the text does, and then the rest belongs
together. -/
theorem Spells.last_cases (spells : Spells bytes text) {mark : UInt8} (low : mark < 0x80) :
    (∃ front start, bytes = front ++ [mark] ∧ text = start ++ [Char.ofUInt8 mark] ∧
      Spells front start) ∨
    (bytes.getLast? ≠ some mark ∧ text.getLast? ≠ some (Char.ofUInt8 mark)) := by
  induction spells with
  | nil => exact Or.inr ⟨by simp, by simp⟩
  | @cons group rest character text letter later ih =>
      rcases ih with ⟨front, start, rfl, rfl, before⟩ | ⟨bytes_end, text_end⟩
      · exact Or.inl ⟨group ++ front, character :: start, (List.append_assoc ..).symm, rfl,
          .cons letter before⟩
      · cases later with
        | nil =>
            rcases letter.mark_cases low with ⟨rfl, rfl⟩ | ⟨absent, other⟩
            · exact Or.inl ⟨[], [], rfl, rfl, .nil⟩
            · refine Or.inr ⟨fun ends => absent ?_, fun ends => other (Option.some.inj ends)⟩
              rw [List.append_nil] at ends
              exact List.mem_of_getLast? ends
        | cons next more =>
            right
            rw [List.getLast?_append_of_ne_nil _ (by simp [next.ne_nil]), List.getLast?_cons_cons]
            exact ⟨bytes_end, text_end⟩

end Marks

/-! ## Texts that are encoded -/

theorem continuation?_ofNat {low : Nat} (small : low < 64) :
    continuation? (UInt8.ofNat (low + 128)) = some low := by
  have value : (UInt8.ofNat (low + 128)).toNat = low + 128 :=
    UInt8.toNat_ofNat_of_lt' (show low + 128 < 256 by omega)
  have bounds : 0x80 ≤ UInt8.ofNat (low + 128) ∧ UInt8.ofNat (low + 128) < 0xC0 := by
    rw [UInt8.le_iff_toNat_le, UInt8.lt_iff_toNat_lt, value]
    change 128 ≤ _ ∧ _ < 192
    omega
  rw [continuation?, if_pos bounds, value]
  exact congrArg some (Nat.add_sub_cancel ..)

theorem scalar?_toNat {least : Nat} {character : Char} (large : least ≤ character.toNat) :
    scalar? least character.toNat = some character := by
  have valid : character.toNat.isValidChar := character.valid
  rw [scalar?, dif_pos ⟨large, valid⟩]
  exact congrArg some (Char.ext (UInt32.toNat_inj.mp rfl))

/-- No character is above the last code point. -/
theorem toNat_lt_of_valid (character : Char) : character.toNat < 0x110000 := by
  rcases character.valid with low | high
  · exact Nat.lt_trans low (by decide)
  · exact high.2

theorem toNat_ofNat_byte {value : Nat} (small : value < 256) :
    (UInt8.ofNat value).toNat = value :=
  UInt8.toNat_ofNat_of_lt' small

/-- A byte is below another exactly if its value is. -/
theorem ofNat_lt_iff {value : Nat} (small : value < 256) {mark : UInt8} :
    UInt8.ofNat value < mark <-> value < mark.toNat := by
  rw [UInt8.lt_iff_toNat_lt, toNat_ofNat_byte small]

theorem le_ofNat {value : Nat} (large : 128 ≤ value) (small : value < 256) :
    0x80 ≤ UInt8.ofNat value := by
  rw [UInt8.le_iff_toNat_le, toNat_ofNat_byte small]
  exact large

section Encoding

variable {character : Char}

theorem letter_one (least : character.toNat < 128) :
    Letter [UInt8.ofNat character.toNat] character := by
  have small : character.toNat < 256 := by omega
  have low : UInt8.ofNat character.toNat < 0x80 := (ofNat_lt_iff small).mpr least
  have same : Char.ofUInt8 (UInt8.ofNat character.toNat) = character :=
    Char.toNat_inj.mp (toNat_ofNat_byte small)
  refine ⟨fun rest => ?_, Or.inl ⟨_, low, rfl, same.symm⟩⟩
  rw [List.singleton_append, utf8Decode?_one _ low, same]

theorem letter_two (least : 128 ≤ character.toNat) (bounded : character.toNat < 2048) :
    Letter [UInt8.ofNat (character.toNat / 64 % 32 + 192),
      UInt8.ofNat (character.toNat % 64 + 128)] character := by
  have known := scalar?_toNat least
  have small : character.toNat / 64 % 32 + 192 < 256 := by omega
  have joined : (character.toNat / 64 % 32 + 192 - 0xC0) * 0x40 + character.toNat % 64 =
      character.toNat := by omega
  refine Letter.of_group (List.cons_ne_nil _ _) (fun rest => utf8Decode?_two rest ?_ ?_) ?_ ?_ least
  · rw [ofNat_lt_iff small]
    change ¬ _ < 128
    omega
  · rw [ofNat_lt_iff small]
    change _ < 224
    omega
  · rw [continuation?_ofNat (Nat.mod_lt _ (by decide)), toNat_ofNat_byte small, Option.bind_some,
      joined]
    exact known
  · simp only [List.mem_cons, List.not_mem_nil, or_false, forall_eq_or_imp, forall_eq]
    exact ⟨le_ofNat (by omega) (by omega), le_ofNat (by omega) (by omega)⟩

theorem letter_three (least : 2048 ≤ character.toNat) (bounded : character.toNat < 65536) :
    Letter [UInt8.ofNat (character.toNat / 4096 % 16 + 224),
      UInt8.ofNat (character.toNat / 64 % 64 + 128),
      UInt8.ofNat (character.toNat % 64 + 128)] character := by
  have known := scalar?_toNat least
  have small : character.toNat / 4096 % 16 + 224 < 256 := by omega
  have joined : (character.toNat / 4096 % 16 + 224 - 0xE0) * 0x1000 +
      character.toNat / 64 % 64 * 0x40 + character.toNat % 64 = character.toNat := by omega
  refine Letter.of_group (List.cons_ne_nil _ _) (fun rest => utf8Decode?_three rest ?_ ?_ ?_) ?_ ?_
    (Nat.le_trans (by decide) least)
  · rw [ofNat_lt_iff small]
    change ¬ _ < 128
    omega
  · rw [ofNat_lt_iff small]
    change ¬ _ < 224
    omega
  · rw [ofNat_lt_iff small]
    change _ < 240
    omega
  · rw [continuation?_ofNat (Nat.mod_lt _ (by decide)),
      continuation?_ofNat (Nat.mod_lt _ (by decide)), toNat_ofNat_byte small, Option.bind_some,
      Option.bind_some, joined]
    exact known
  · simp only [List.mem_cons, List.not_mem_nil, or_false, forall_eq_or_imp, forall_eq]
    exact ⟨le_ofNat (by omega) (by omega), le_ofNat (by omega) (by omega),
      le_ofNat (by omega) (by omega)⟩

theorem letter_four (least : 65536 ≤ character.toNat) :
    Letter [UInt8.ofNat (character.toNat / 262144 % 8 + 240),
      UInt8.ofNat (character.toNat / 4096 % 64 + 128),
      UInt8.ofNat (character.toNat / 64 % 64 + 128),
      UInt8.ofNat (character.toNat % 64 + 128)] character := by
  have bounded := toNat_lt_of_valid character
  have known := scalar?_toNat least
  have small : character.toNat / 262144 % 8 + 240 < 256 := by omega
  have joined : (character.toNat / 262144 % 8 + 240 - 0xF0) * 0x40000 +
      character.toNat / 4096 % 64 * 0x1000 + character.toNat / 64 % 64 * 0x40 +
        character.toNat % 64 = character.toNat := by omega
  refine Letter.of_group (List.cons_ne_nil _ _) (fun rest => utf8Decode?_four rest ?_ ?_ ?_) ?_ ?_
    (Nat.le_trans (by decide) least)
  · rw [ofNat_lt_iff small]
    change ¬ _ < 128
    omega
  · rw [ofNat_lt_iff small]
    change ¬ _ < 224
    omega
  · rw [ofNat_lt_iff small]
    change ¬ _ < 240
    omega
  · rw [continuation?_ofNat (Nat.mod_lt _ (by decide)),
      continuation?_ofNat (Nat.mod_lt _ (by decide)),
      continuation?_ofNat (Nat.mod_lt _ (by decide)), toNat_ofNat_byte small, Option.bind_some,
      Option.bind_some, Option.bind_some, joined]
    exact known
  · simp only [List.mem_cons, List.not_mem_nil, or_false, forall_eq_or_imp, forall_eq]
    exact ⟨le_ofNat (by omega) (by omega), le_ofNat (by omega) (by omega),
      le_ofNat (by omega) (by omega), le_ofNat (by omega) (by omega)⟩

/-- The bytes of a character are decoded to it, and they are a group. -/
theorem letter_encode (character : Char) :
    Letter (String.utf8EncodeChar character) character := by
  rw [String.utf8EncodeChar, show character.val.toNat = character.toNat from rfl]
  split_ifs with one two three
  · exact letter_one (Nat.lt_succ_of_le one)
  · exact letter_two (Nat.lt_of_not_le one) (Nat.lt_succ_of_le two)
  · exact letter_three (Nat.lt_of_not_le two) (Nat.lt_succ_of_le three)
  · exact letter_four (Nat.lt_of_not_le three)

end Encoding

theorem spells_utf8Bytes (text : List Char) : Spells (utf8Bytes text) text := by
  induction text with
  | nil => exact .nil
  | cons character text ih => exact .cons (letter_encode character) ih

theorem Spells.decode_append {bytes : List UInt8} {text : List Char} (spells : Spells bytes text)
    (rest : List UInt8) :
    utf8Decode? (bytes ++ rest) = (utf8Decode? rest).map fun behind => text ++ behind := by
  induction spells with
  | nil => simp
  | cons letter spells ih =>
      rw [List.append_assoc, letter.decodes, ih, Option.map_map]
      rfl

/-- Bytes can be cut in front of a byte below `0x80`, and so is their text. -/
theorem Spells.cut {whole bytes rest : List UInt8} {text : List Char} (spells : Spells whole text)
    (joined : whole = bytes ++ rest) (apart : forall byte, byte ∈ rest.head? -> byte < 0x80) :
    ∃ front behind, text = front ++ behind ∧ Spells bytes front ∧ Spells rest behind := by
  induction spells generalizing bytes with
  | nil =>
      rcases List.append_eq_nil_iff.mp joined.symm with ⟨rfl, rfl⟩
      exact ⟨[], [], rfl, .nil, .nil⟩
  | @cons group others character text letter spells ih =>
      rcases List.append_eq_append_iff.mp joined with ⟨part, rfl, later⟩ | ⟨part, split, same⟩
      · rcases ih later with ⟨front, behind, rfl, before, after⟩
        exact ⟨character :: front, behind, rfl, .cons letter before, after⟩
      · cases bytes with
        | nil =>
            have whole : group ++ others = rest := joined
            exact ⟨[], character :: text, rfl, .nil, whole ▸ .cons letter spells⟩
        | cons byte bytes =>
            cases part with
            | nil =>
                rw [List.append_nil] at split
                have one := Spells.cons letter .nil
                rw [List.append_nil, split] at one
                exact ⟨[character], text, rfl, one, same ▸ spells⟩
            | cons mark part =>
                -- A low byte is a group of its own, so nothing stands in front of it.
                have low := apart mark (by rw [same]; rfl)
                rcases letter.mark_cases low with ⟨single, -⟩ | ⟨absent, -⟩
                · rw [split] at single
                  simp at single
                · exact absurd (by simp [split]) absent

/-- What follows with a byte below `0x80` is decoded by itself. -/
theorem utf8Decode?_append (bytes rest : List UInt8)
    (apart : forall byte, byte ∈ rest.head? -> byte < 0x80) :
    utf8Decode? (bytes ++ rest) =
      (utf8Decode? bytes).bind fun text =>
        (utf8Decode? rest).map fun behind => text ++ behind := by
  cases decoded : utf8Decode? bytes with
  | some text => rw [(spells_of_decode decoded).decode_append, Option.bind_some]
  | none =>
      rw [Option.bind_none, Option.eq_none_iff_forall_ne_some]
      intro text whole
      rcases (spells_of_decode whole).cut rfl apart with ⟨front, behind, -, before, -⟩
      rw [before.decodes] at decoded
      contradiction

/-! ## Lines -/

section Lines

/-- What stands before a first piece without a separator belongs to it. -/
theorem pieces_of_front {α : Type} {separates : α -> Bool} {front first text : List α}
    {others : List (List α)}
    (whole : forall element, element ∈ front -> separates element = false)
    (cut : pieces separates text = first :: others) :
    pieces separates (front ++ text) = (front ++ first) :: others := by
  induction front with
  | nil => exact cut
  | cons element front ih =>
      rw [List.forall_mem_cons] at whole
      simp [pieces, whole.1, ih whole.2, consFirst]

variable {bytes : List UInt8} {text : List Char}

theorem Spells.pieces (spells : Spells bytes text) :
    List.Forall₂ Spells (pieces (fun byte => decide (byte = 10)) bytes)
      (pieces (fun character => decide (character = '\n')) text) := by
  induction spells with
  | nil => exact .cons .nil .nil
  | @cons group rest character text letter later ih =>
      have low : (10 : UInt8) < 0x80 := by decide
      rcases letter.mark_cases low with ⟨rfl, rfl⟩ | ⟨absent, other⟩
      · exact .cons .nil ih
      · rcases cut : Text.pieces (fun byte => decide (byte = 10)) rest with _ | ⟨first, others⟩
        · exact absurd cut (pieces_ne_nil _ _)
        · rcases trimmed : Text.pieces (fun character => decide (character = '\n')) text with
            _ | ⟨start, more⟩
          · exact absurd trimmed (pieces_ne_nil _ _)
          · rw [cut, trimmed] at ih
            cases ih with
            | cons head tail =>
                have clean : forall byte, byte ∈ group -> decide (byte = 10) = false := by
                  intro byte member
                  exact decide_eq_false fun same => absent (same ▸ member)
                have whole : forall element, element ∈ [character] ->
                    decide (element = '\n') = false := by
                  intro element member
                  rw [List.mem_singleton.mp member]
                  exact decide_eq_false other
                have one := pieces_of_front whole trimmed
                rw [List.singleton_append] at one
                rw [pieces_of_front clean cut, one]
                exact .cons (.cons letter head) tail

theorem Spells.dropTrailing (spells : Spells bytes text) :
    Spells (dropTrailing 13 bytes) (dropTrailing '\r' text) := by
  have low : (13 : UInt8) < 0x80 := by decide
  have mark : '\r' = Char.ofUInt8 13 := rfl
  unfold Text.dropTrailing
  rw [mark]
  rcases spells.last_cases low with ⟨front, start, rfl, rfl, before⟩ | ⟨bytes_end, text_end⟩
  · rw [if_pos (List.getLast?_concat ..), if_pos (List.getLast?_concat ..), List.dropLast_concat,
      List.dropLast_concat]
    exact before
  · rw [if_neg bytes_end, if_neg text_end]
    exact spells

theorem forall₂_finishLines {byte_pieces : List (List UInt8)} {pieces : List (List Char)}
    (spell : List.Forall₂ Spells byte_pieces pieces) :
    List.Forall₂ Spells (finishLines 13 byte_pieces) (finishLines '\r' pieces) := by
  induction spell with
  | nil => exact .nil
  | @cons piece other rest others head tail ih =>
      cases tail with
      | nil =>
          have empty := head.eq_nil_iff
          unfold finishLines
          rw [<- List.isEmpty_iff, <- List.isEmpty_iff, Bool.coe_iff_coe] at empty
          rw [empty]
          split
          · exact .nil
          · exact .cons head .nil
      | cons next more => exact .cons head.dropTrailing ih

theorem map_decode_of_spells {rows : List (List UInt8)} {texts : List (List Char)}
    (spell : List.Forall₂ Spells rows texts) : rows.map utf8Decode? = texts.map some := by
  induction spell with
  | nil => rfl
  | cons head tail ih => rw [List.map_cons, List.map_cons, head.decodes, ih]

/-- The lines of a text are the decoded lines of its bytes. -/
theorem map_decode_byteLines (decoded : utf8Decode? bytes = some text) :
    (byteLines bytes).map utf8Decode? = (lines text).map some :=
  map_decode_of_spells (forall₂_finishLines (spells_of_decode decoded).pieces)

/-- There is no separator in a piece. -/
theorem separates_of_mem_pieces {α : Type} {separates : α -> Bool} {text piece : List α}
    (member : piece ∈ Text.pieces separates text) :
    forall element, element ∈ piece -> separates element = false := by
  induction text generalizing piece with
  | nil => simp [Text.pieces] at member; simp [member]
  | cons first rest ih =>
      unfold Text.pieces at member
      split at member
      · rcases List.mem_cons.mp member with rfl | later
        · simp
        · exact ih later
      · rename_i stays
        rcases cut : Text.pieces separates rest with _ | ⟨head, others⟩
        · exact absurd cut (pieces_ne_nil _ _)
        · rw [cut] at member ih
          rcases List.mem_cons.mp member with rfl | later
          · rw [List.forall_mem_cons]
            exact ⟨Bool.eq_false_iff.mpr stays, ih List.mem_cons_self⟩
          · exact ih (List.mem_cons_of_mem _ later)

theorem subset_of_mem_finishLines {α : Type} [DecidableEq α] {mark : α}
    {pieces : List (List α)} {line : List α} (member : line ∈ finishLines mark pieces) :
    ∃ piece, piece ∈ pieces ∧ line ⊆ piece := by
  induction pieces with
  | nil => contradiction
  | cons piece rest ih =>
      cases rest with
      | nil =>
          unfold finishLines at member
          split at member
          · contradiction
          · exact ⟨line, member, fun _ => id⟩
      | cons next more =>
          rcases List.mem_cons.mp member with rfl | later
          · refine ⟨piece, List.mem_cons_self, ?_⟩
            unfold Text.dropTrailing
            split
            · exact List.dropLast_subset piece
            · exact fun _ => id
          · rcases ih later with ⟨other, among, subset⟩
            exact ⟨other, List.mem_cons_of_mem _ among, subset⟩

theorem lineFeed_notMem_of_mem_lines {line : List Char} (member : line ∈ lines text) :
    '\n' ∉ line := by
  rcases subset_of_mem_finishLines member with ⟨piece, among, subset⟩
  intro broken
  have whole := separates_of_mem_pieces among '\n' (subset broken)
  exact absurd whole (by decide)

end Lines

end Text
end MemoryProbe
