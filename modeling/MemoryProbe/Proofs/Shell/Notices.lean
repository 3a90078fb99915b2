import MemoryProbe.Proofs.Text.Numerals
import MemoryProbe.Shell.Session

namespace MemoryProbe

/-!
Messages about lines that are not carried out.  Each is one line, whatever the line was, and
none of them is the line that ends the output of a command.
-/

namespace Text

theorem notMem_toList_append {character : Char} {first second : String} :
    character ∉ (first ++ second).toList <->
      character ∉ first.toList ∧ character ∉ second.toList := by
  rw [String.toList_append, List.mem_append, not_or]

theorem head?_toList_append {character : Char} {first second : String}
    (head : first.toList.head? = some character) :
    (first ++ second).toList.head? = some character := by
  rw [String.toList_append, List.head?_append, head, Option.some_or]

/-- There is no line feed in the digits of a number. -/
theorem lineFeed_notMem_toDigits {radix : Nat} (wide : 1 < radix) (fits : radix ≤ 16)
    (value : Nat) : '\n' ∉ Nat.toDigits radix value := by
  intro member
  rcases exists_digit_of_mem_toDigits wide value member with ⟨digit, inside, same⟩
  have solid := (digitChar_distinct (by omega : digit < 16)).1
  rw [<- same] at solid
  exact absurd solid (by decide)

/-- A number is printed in digits. -/
theorem isDigit_of_mem_toString {value : Nat} {character : Char}
    (member : character ∈ (toString value).toList) : character.isDigit = true := by
  change character ∈ (String.ofList (Nat.toDigits 10 value)).toList at member
  rw [String.toList_ofList] at member
  rcases exists_digit_of_mem_toDigits (by decide) value member with ⟨digit, inside, rfl⟩
  clear member
  interval_cases digit <;> decide

theorem lineFeed_notMem_toString (value : Nat) : '\n' ∉ (toString value).toList :=
  fun member => absurd (isDigit_of_mem_toString member) (by decide)

/-- A quoted character shows a line feed by its escape. -/
theorem lineFeed_notMem_quotedCharacter (character : Char) :
    '\n' ∉ (quotedCharacter character).toList := by
  have digits := lineFeed_notMem_toDigits (by decide) (by decide : 16 ≤ 16) character.toNat
  unfold quotedCharacter quotedBetween backslash
  rw [String.toList_ofList]
  split
  · rename_i special
    rcases special with rfl | rfl <;> decide
  · split
    · decide
    · split
      · decide
      · split
        · decide
        · split
          · decide
          · rename_i plain _
            split
            · simpa [hexDigits] using digits
            · simp [Ne.symm plain]

theorem subset_trim (text : List Char) : trim text ⊆ text := by
  unfold trim trimEnd trimStart
  intro character member
  have inner := (List.dropWhile_sublist _).subset (List.mem_reverse.mp member)
  exact (List.dropWhile_sublist _).subset (List.mem_reverse.mp inner)

theorem subset_of_splitOnce? {α : Type} {separates : α -> Bool} {text : List α}
    {sides : List α × List α} (split : splitOnce? separates text = some sides) :
    sides.2 ⊆ text := by
  induction text generalizing sides with
  | nil => contradiction
  | cons element rest ih =>
      unfold splitOnce? at split
      split at split
      · cases split
        exact List.subset_cons_self _ _
      · rcases Option.map_eq_some_iff.mp split with ⟨later, cut, rfl⟩
        exact fun _ member => List.mem_cons_of_mem _ (ih cut member)

end Text

namespace ShellCommand

/-- What follows the first word of a line is part of the line. -/
theorem subset_splitWord (line : List Char) : (splitWord (dropLineEnds line)).2 ⊆ line := by
  have trimmed : dropLineEnds line ⊆ line := by
    intro character member
    exact List.mem_reverse.mp ((List.dropWhile_sublist _).subset (List.mem_reverse.mp member))
  have started : Text.trimStart (dropLineEnds line) ⊆ line := fun _ member =>
    trimmed ((List.dropWhile_sublist _).subset member)
  unfold splitWord
  dsimp only
  cases cut : Text.splitOnce? Text.isBlank (Text.trimStart (dropLineEnds line)) with
  | none => exact List.nil_subset _
  | some sides => exact fun _ member => started (Text.subset_of_splitOnce? cut member)

section Messages

variable {line rest : List Char} {cause : LineError}

theorem lineFeed_notMem_of_pid (unbroken : '\n' ∉ rest) (asked : ofPid rest = .error cause) :
    '\n' ∉ cause.message.toList := by
  have argument : '\n' ∉ Text.trim rest := fun member => unbroken (Text.subset_trim rest member)
  unfold ofPid at asked
  dsimp only at asked
  split at asked
  · cases asked
    decide
  · split at asked
    · cases asked
    · cases asked
      simpa [LineError.message] using argument

theorem lineFeed_notMem_of_text (asked : ofPatternText rest = .error cause) :
    '\n' ∉ cause.message.toList := by
  unfold ofPatternText at asked
  split at asked
  · cases asked
    decide
  · cases asked

theorem lineFeed_notMem_of_hex (unbroken : '\n' ∉ rest)
    (asked : ofPatternHex rest = .error cause) : '\n' ∉ cause.message.toList := by
  unfold ofPatternHex at asked
  split at asked
  · cases asked
  · rename_i flaw _
    cases asked
    have text : '\n' ∉ (String.ofList rest).toList := by
      rw [String.toList_ofList]
      exact unbroken
    have named : '\n' ∉ ("invalid hex pattern '" ++ String.ofList rest).toList :=
      Text.notMem_toList_append.mpr ⟨by decide, text⟩
    cases flaw with
    | empty => exact (by decide : '\n' ∉ "empty hex pattern".toList)
    | oddLength => exact Text.notMem_toList_append.mpr ⟨named, by decide⟩
    | invalidDigit byte index =>
        have quoted := Text.lineFeed_notMem_quotedCharacter (Char.ofUInt8 byte)
        have number := Text.lineFeed_notMem_toString index
        unfold LineError.message HexError.message
        dsimp only
        rw [Text.notMem_toList_append, Text.notMem_toList_append, Text.notMem_toList_append,
          Text.notMem_toList_append]
        exact ⟨⟨⟨⟨named, by decide⟩, quoted⟩, by decide⟩, number⟩

/-- A message about a line without a line feed has none. -/
theorem lineFeed_notMem_message (unbroken : '\n' ∉ line)
    (asked : ofLine line = .error cause) : '\n' ∉ cause.message.toList := by
  have rest : '\n' ∉ (splitWord (dropLineEnds line)).2 := fun member =>
    unbroken (subset_splitWord line member)
  unfold ofLine at asked
  dsimp only at asked
  split at asked <;> first
    | exact lineFeed_notMem_of_pid rest asked
    | exact lineFeed_notMem_of_text asked
    | exact lineFeed_notMem_of_hex rest asked
    | cases asked <;> decide

end Messages

end ShellCommand

/-- A message about a line does not begin like the line that ends the output of a command. -/
theorem LineError.head?_message (cause : LineError) : cause.message.toList.head? ≠ some '=' := by
  have begins : ∃ first, first ≠ '=' ∧ cause.message.toList.head? = some first := by
    cases cause with
    | missingPid => exact ⟨'P', by decide, by decide⟩
    | invalidPid text => exact ⟨'I', by decide, Text.head?_toList_append (by decide)⟩
    | missingPattern => exact ⟨'P', by decide, by decide⟩
    | unknownCommand => exact ⟨'U', by decide, by decide⟩
    | invalidHex text flaw =>
        have named : ("invalid hex pattern '" ++ text).toList.head? = some 'i' :=
          Text.head?_toList_append (by decide)
        cases flaw with
        | empty => exact ⟨'e', by decide, (by decide : "empty hex pattern".toList.head? = some 'e')⟩
        | oddLength => exact ⟨'i', by decide, Text.head?_toList_append named⟩
        | invalidDigit byte index =>
            refine ⟨'i', by decide, ?_⟩
            exact Text.head?_toList_append (Text.head?_toList_append
              (Text.head?_toList_append (Text.head?_toList_append named)))
  rcases begins with ⟨first, other, head⟩
  rw [head]
  exact fun same => other (Option.some.inj same)

namespace Shell

/-- A message of one line that begins otherwise is not the line that ends the output of a
command. -/
theorem separator_notMem_lines {message : String} (unbroken : '\n' ∉ message.toList)
    (head : message.toList.head? ≠ some '=') :
    separator.toList ∉ Text.lines (message ++ "\n\n").toList := by
  have cut : Text.lines (message ++ "\n\n").toList =
      [Text.dropTrailing '\r' message.toList, []] := by
    rw [String.toList_append]
    exact Text.lines_append unbroken ['\n']
  rw [cut]
  have front : Text.dropTrailing '\r' message.toList <+: message.toList := by
    unfold Text.dropTrailing
    split
    · exact List.dropLast_prefix _
    · exact List.prefix_rfl
  intro member
  rcases List.mem_cons.mp member with same | other
  · rw [<- same] at front
    rcases front with ⟨later, whole⟩
    rw [<- whole] at head
    exact head rfl
  · exact absurd other (by decide)

end Shell
end MemoryProbe
