import MemoryProbe.Fault
import MemoryProbe.Proofs.Text.Decoding

namespace MemoryProbe
namespace Text

/-!
Places in a text, counted in characters or in bytes.  The first and the last place of a mark are
where the part in front of it ends.  A part of a text may be taken out of its bytes only at the
places where a character begins or the text ends, and the places around a mark below `0x80` are
such places.
-/

/-! ## First and last places -/

section Marks

variable {α : Type} {mark : α}

/-- A mark in a text has a last place there. -/
theorem exists_last_of_mem {text : List α} (member : mark ∈ text) :
    ∃ front rest, text = front ++ mark :: rest ∧ mark ∉ rest := by
  rcases List.eq_append_cons_of_mem (List.mem_reverse.mpr member) with ⟨rest, front, turned, clean⟩
  refine ⟨front.reverse, rest.reverse, ?_, fun behind => clean (List.mem_reverse.mp behind)⟩
  rw [<- List.reverse_reverse text, turned]
  simp

variable [DecidableEq α]

/-- The first place of a mark. -/
def firstPlace? (mark : α) (text : List α) : Option Nat :=
  text.findIdx? (· = mark)

/-- The last place of a mark. -/
def lastPlace? (mark : α) (text : List α) : Option Nat :=
  (text.reverse.findIdx? (· = mark)).map fun index => text.length - 1 - index

theorem firstPlace?_eq_none {text : List α} (absent : mark ∉ text) :
    firstPlace? mark text = none :=
  List.findIdx?_eq_none_iff.mpr fun _ member =>
    decide_eq_false fun same => absent (same ▸ member)

theorem firstPlace?_append_cons {front : List α} (clean : mark ∉ front) (rest : List α) :
    firstPlace? mark (front ++ mark :: rest) = some front.length := by
  rw [firstPlace?, List.findIdx?_append]
  change (firstPlace? mark front).or _ = _
  rw [firstPlace?_eq_none clean]
  simp [List.findIdx?_cons]

theorem lastPlace?_eq_none {text : List α} (absent : mark ∉ text) :
    lastPlace? mark text = none := by
  have turned : firstPlace? mark text.reverse = none :=
    firstPlace?_eq_none fun member => absent (List.mem_reverse.mp member)
  exact Option.map_eq_none_iff.mpr turned

theorem lastPlace?_append_cons {rest : List α} (clean : mark ∉ rest) (front : List α) :
    lastPlace? mark (front ++ mark :: rest) = some front.length := by
  have turned : firstPlace? mark (front ++ mark :: rest).reverse = some rest.reverse.length := by
    rw [List.reverse_append, List.reverse_cons, List.append_assoc, List.singleton_append]
    exact firstPlace?_append_cons (fun member => clean (List.mem_reverse.mp member)) _
  rw [firstPlace?] at turned
  rw [lastPlace?, turned, Option.map_some, List.length_append, List.length_cons,
    List.length_reverse]
  exact congrArg some (by omega)

end Marks

/-! ## Bytes -/

theorem utf8Bytes_append (front rest : List Char) :
    utf8Bytes (front ++ rest) = utf8Bytes front ++ utf8Bytes rest :=
  List.flatMap_append

theorem utf8Bytes_cons (character : Char) (rest : List Char) :
    utf8Bytes (character :: rest) = String.utf8EncodeChar character ++ utf8Bytes rest :=
  List.flatMap_cons

variable {mark : UInt8}

/-- A byte below `0x80` is in the bytes of a text exactly if its character is in the text. -/
theorem mem_utf8Bytes_iff (low : mark < 0x80) {text : List Char} :
    mark ∈ utf8Bytes text <-> Char.ofUInt8 mark ∈ text := by
  refine ⟨fun member => ?_, (spells_utf8Bytes text).mem_of_mem low⟩
  rcases List.mem_flatMap.mp member with ⟨character, among, inside⟩
  rcases (letter_encode character).mark_cases low with ⟨-, rfl⟩ | ⟨absent, -⟩
  · exact among
  · exact absurd inside absent

theorem utf8EncodeChar_ofUInt8 (low : mark < 0x80) :
    String.utf8EncodeChar (Char.ofUInt8 mark) = [mark] := by
  rcases (letter_encode (Char.ofUInt8 mark)).mark_cases low with ⟨single, -⟩ | ⟨-, other⟩
  · exact single
  · exact absurd rfl other

theorem utf8Bytes_mark (low : mark < 0x80) (rest : List Char) :
    utf8Bytes (Char.ofUInt8 mark :: rest) = mark :: utf8Bytes rest := by
  rw [utf8Bytes_cons, utf8EncodeChar_ofUInt8 low, List.singleton_append]

/-- Such a character is one byte wide. -/
theorem length_utf8Bytes_concat (low : mark < 0x80) (front : List Char) :
    (utf8Bytes (front ++ [Char.ofUInt8 mark])).length = (utf8Bytes front).length + 1 := by
  rw [utf8Bytes_append, utf8Bytes_mark low, List.length_append]
  rfl

theorem firstPlace?_utf8Bytes (low : mark < 0x80) {front : List Char}
    (clean : Char.ofUInt8 mark ∉ front) (rest : List Char) :
    firstPlace? mark (utf8Bytes (front ++ Char.ofUInt8 mark :: rest)) =
      some (utf8Bytes front).length := by
  rw [utf8Bytes_append, utf8Bytes_mark low]
  exact firstPlace?_append_cons (fun member => clean ((mem_utf8Bytes_iff low).mp member)) _

theorem lastPlace?_utf8Bytes (low : mark < 0x80) {rest : List Char}
    (clean : Char.ofUInt8 mark ∉ rest) (front : List Char) :
    lastPlace? mark (utf8Bytes (front ++ Char.ofUInt8 mark :: rest)) =
      some (utf8Bytes front).length := by
  rw [utf8Bytes_append, utf8Bytes_mark low]
  exact lastPlace?_append_cons (fun member => clean ((mem_utf8Bytes_iff low).mp member)) _

/-- Bytes below `0x80` are the bytes of the characters with their numbers. -/
theorem map_ofUInt8_utf8Bytes {text : List Char}
    (low : forall byte, byte ∈ utf8Bytes text -> byte < 0x80) :
    (utf8Bytes text).map Char.ofUInt8 = text := by
  induction text with
  | nil => rfl
  | cons character text ih =>
      rw [utf8Bytes_cons, List.forall_mem_append] at low
      rcases (letter_encode character).marks with ⟨byte, -, group, same⟩ | ⟨filled, high, -⟩
      · rw [utf8Bytes_cons, group, List.singleton_append, List.map_cons, ih low.2, same]
      · rcases List.exists_cons_of_ne_nil filled with ⟨byte, others, group⟩
        have member : byte ∈ String.utf8EncodeChar character := by
          rw [group]
          exact List.mem_cons_self
        exact absurd (low.1 byte member) (UInt8.not_lt.mpr (high byte member))

theorem utf8Bytes_low {text : List Char}
    (plain : forall character, character ∈ text -> character.toNat < 128) :
    forall byte, byte ∈ utf8Bytes text -> byte < 0x80 := by
  intro byte member
  rcases List.mem_flatMap.mp member with ⟨character, among, inside⟩
  have small := plain character among
  rcases (letter_encode character).marks with ⟨mark, low, group, -⟩ | ⟨-, -, large⟩
  · rw [group, List.mem_singleton] at inside
    exact inside ▸ low
  · omega

/-! ## Parts -/

/-- A place where a part of a text may begin or end: its ends, and every byte that does not
continue a character. -/
def isBoundary (bytes : List UInt8) (place : Nat) : Bool :=
  place = 0 || place = bytes.length ||
    bytes[place]?.any fun byte => (continuation? byte).isNone

/-- The part of a text between two places in its bytes.  The first must not come after the
second, and neither may be inside a character. -/
def between (bytes : List UInt8) (first past : Nat) : Except Fault (List Char) :=
  if first ≤ past ∧ isBoundary bytes first ∧ isBoundary bytes past then
    (utf8Decode? ((bytes.take past).drop first)).elim (.error .outOfRange) .ok
  else
    .error .outOfRange

theorem continuation?_eq_none {value : Nat} (small : value < 256)
    (apart : value < 128 ∨ 192 ≤ value) : continuation? (UInt8.ofNat value) = none := by
  refine if_neg fun bounds => ?_
  rw [UInt8.le_iff_toNat_le, UInt8.lt_iff_toNat_lt, toNat_ofNat_byte small] at bounds
  change 128 ≤ value ∧ value < 192 at bounds
  omega

/-- No character begins with a byte that continues one. -/
theorem continuation?_of_head {character : Char} {byte : UInt8}
    (first : byte ∈ (String.utf8EncodeChar character).head?) : continuation? byte = none := by
  have bounded : character.val.toNat < 0x110000 := toNat_lt_of_valid character
  rw [String.utf8EncodeChar] at first
  split_ifs at first with one two three <;> cases first
  all_goals exact continuation?_eq_none (by omega) (by omega)

/-- A part of a text ends at a boundary of its bytes. -/
theorem isBoundary_append (front rest : List Char) :
    isBoundary (utf8Bytes (front ++ rest)) (utf8Bytes front).length = true := by
  rw [isBoundary, Bool.or_eq_true, Bool.or_eq_true]
  cases rest with
  | nil =>
      refine Or.inl (Or.inr (decide_eq_true ?_))
      rw [List.append_nil]
  | cons character rest =>
      rcases List.exists_cons_of_ne_nil (letter_encode character).ne_nil with ⟨byte, others, group⟩
      have there : (utf8Bytes (front ++ character :: rest))[(utf8Bytes front).length]? =
          some byte := by
        rw [utf8Bytes_append, utf8Bytes_cons, group, List.cons_append,
          List.getElem?_append_right (Nat.le_refl _), Nat.sub_self, List.getElem?_cons_zero]
      have apart : continuation? byte = none :=
        @continuation?_of_head character byte (by rw [group]; rfl)
      exact Or.inr (by rw [there, Option.any_some, apart]; rfl)

/-- What stands between two parts of a text is taken out whole. -/
theorem between_append (front part rest : List Char) :
    between (utf8Bytes (front ++ (part ++ rest))) (utf8Bytes front).length
      (utf8Bytes (front ++ part)).length = .ok part := by
  have inside : (utf8Bytes front).length ≤ (utf8Bytes (front ++ part)).length := by
    rw [utf8Bytes_append, List.length_append]
    exact Nat.le_add_right _ _
  have ends := isBoundary_append (front ++ part) rest
  rw [List.append_assoc] at ends
  rw [between, if_pos ⟨inside, isBoundary_append front _, ends⟩, <- List.append_assoc,
    utf8Bytes_append (front ++ part), List.take_left, utf8Bytes_append, List.drop_left,
    (spells_utf8Bytes part).decodes]
  rfl

/-- The first of these places is inside a character. -/
example : between (utf8Bytes "é(".toList) 1 3 = .error .outOfRange := by cbv

end Text
end MemoryProbe
