import Mathlib.Data.List.DropRight
import MemoryProbe.Text.Lines

namespace MemoryProbe
namespace Text

/-!
Texts that are put together and cut again.  A part without a separator, followed by a
separator, is cut off whole.  Trimming takes away exactly the blanks around a text, words
are cut off at the blanks between them, and lines at their line ends.
-/

section Separated

variable {α : Type} {separates : α -> Bool} {part : List α} {separator : α}

theorem pieces_eq_singleton (whole : forall element, element ∈ part -> separates element = false) :
    pieces separates part = [part] := by
  induction part with
  | nil => rfl
  | cons element part ih =>
      rw [List.forall_mem_cons] at whole
      simp [pieces, whole.1, ih whole.2, consFirst]

theorem pieces_append (whole : forall element, element ∈ part -> separates element = false)
    (cuts : separates separator = true) (rest : List α) :
    pieces separates (part ++ separator :: rest) = part :: pieces separates rest := by
  induction part with
  | nil => simp [pieces, cuts]
  | cons element part ih =>
      rw [List.forall_mem_cons] at whole
      simp [pieces, whole.1, ih whole.2, consFirst]

theorem splitOnce?_append (whole : forall element, element ∈ part -> separates element = false)
    (cuts : separates separator = true) (rest : List α) :
    splitOnce? separates (part ++ separator :: rest) = some (part, rest) := by
  induction part with
  | nil => simp [splitOnce?, cuts]
  | cons element part ih =>
      rw [List.forall_mem_cons] at whole
      simp [splitOnce?, whole.1, ih whole.2]

theorem piecesUpTo_eq_singleton
    (whole : forall element, element ∈ part -> separates element = false) (count : Nat) :
    piecesUpTo separates (count + 1) part = [part] := by
  induction part with
  | nil => cases count <;> rfl
  | cons element part ih =>
      rw [List.forall_mem_cons] at whole
      cases count with
      | zero => rfl
      | succ count => simp [piecesUpTo, whole.1, ih whole.2, consFirst]

theorem piecesUpTo_append (whole : forall element, element ∈ part -> separates element = false)
    (cuts : separates separator = true) (count : Nat) (rest : List α) :
    piecesUpTo separates (count + 2) (part ++ separator :: rest) =
      part :: piecesUpTo separates (count + 1) rest := by
  induction part with
  | nil => simp [piecesUpTo, cuts]
  | cons element part ih =>
      rw [List.forall_mem_cons] at whole
      simp [piecesUpTo, whole.1, ih whole.2, consFirst]

/-- Columns that are each followed by a separator are cut off one after the other. -/
theorem piecesUpTo_flatMap {columns : List (List α)}
    (whole : forall column, column ∈ columns ->
      forall element, element ∈ column -> separates element = false)
    (cuts : separates separator = true) (count : Nat) (rest : List α) :
    piecesUpTo separates (columns.length + count + 1)
        ((columns.flatMap fun column => column ++ [separator]) ++ rest) =
      columns ++ piecesUpTo separates (count + 1) rest := by
  induction columns with
  | nil => simp
  | cons column columns ih =>
      rw [List.forall_mem_cons] at whole
      have first := piecesUpTo_append whole.1 cuts (columns.length + count)
        ((columns.flatMap fun column => column ++ [separator]) ++ rest)
      rw [ih whole.2] at first
      simpa [Nat.add_right_comm _ 1] using first

end Separated

/-- A text is blank if it has no other characters than blanks. -/
def Blank (text : List Char) : Prop :=
  forall character, character ∈ text -> isBlank character = true

/-- A text is solid if there is no blank in it. -/
def Solid (text : List Char) : Prop :=
  forall character, character ∈ text -> isBlank character = false

instance (text : List Char) : Decidable (Blank text) :=
  List.decidableBAll (fun character => isBlank character = true) text

instance (text : List Char) : Decidable (Solid text) :=
  List.decidableBAll (fun character => isBlank character = false) text

theorem Blank.append {front back : List Char} (first : Blank front) (second : Blank back) :
    Blank (front ++ back) :=
  List.forall_mem_append.mpr ⟨first, second⟩

section Blanks

variable {text gap : List Char}

theorem trimStart_eq_nil_iff : trimStart text = [] <-> Blank text :=
  List.dropWhile_eq_nil_iff

theorem trimEnd_eq_nil_iff : trimEnd text = [] <-> Blank text := by
  simp [trimEnd, List.dropWhile_eq_nil_iff, Blank]

theorem trim_eq_nil_iff : trim text = [] <-> Blank text := by
  have again : trimStart (trimStart text) = trimStart text := List.dropWhile_idempotent _ _
  rw [trim, trimEnd_eq_nil_iff, <- trimStart_eq_nil_iff, again, trimStart_eq_nil_iff]

theorem dropWhile_blank_of_head?
    (filled : forall character, character ∈ text.head? -> isBlank character = false) :
    text.dropWhile isBlank = text := by
  cases text with
  | nil => rfl
  | cons character text => simp [filled character rfl]

/-- Blanks in front of a text whose ends are not blank are all that trimming removes. -/
theorem trim_append (blank : Blank gap)
    (first : forall character, character ∈ text.head? -> isBlank character = false)
    (last : forall character, character ∈ text.getLast? -> isBlank character = false) :
    trim (gap ++ text) = text := by
  have back : text.reverse.dropWhile isBlank = text.reverse :=
    dropWhile_blank_of_head? fun character ends => last character (by simpa using ends)
  rw [trim, trimStart, List.dropWhile_append_of_pos blank, dropWhile_blank_of_head? first,
    trimEnd, back, List.reverse_reverse]

theorem trimEnd_append_blank (blank : Blank gap) : trimEnd (text ++ gap) = trimEnd text := by
  have turned : forall character, character ∈ gap.reverse -> isBlank character = true :=
    fun character member => blank character (List.mem_reverse.mp member)
  rw [trimEnd, List.reverse_append, List.dropWhile_append_of_pos turned, trimEnd]

/-- Blanks behind a text are trimmed off. -/
theorem trim_append_blank (blank : Blank gap) : trim (text ++ gap) = trim text := by
  by_cases empty : Blank text
  · rw [trim_eq_nil_iff.mpr (empty.append blank), trim_eq_nil_iff.mpr empty]
  · have kept : trimStart (text ++ gap) = trimStart text ++ gap := by
      unfold trimStart
      rw [List.dropWhile_append, if_neg]
      rw [List.isEmpty_iff]
      exact fun nothing => empty (trimStart_eq_nil_iff.mp nothing)
    rw [trim, kept, trimEnd_append_blank blank, trim]

theorem trim_blank_append (blank : Blank gap) : trim (gap ++ text) = trim text := by
  rw [trim, trimStart, List.dropWhile_append_of_pos blank, <- trimStart, <- trim]

theorem exists_trimEnd (text : List Char) :
    ∃ back, Blank back ∧ text = trimEnd text ++ back := by
  refine ⟨(text.reverse.takeWhile isBlank).reverse, fun character member => ?_, ?_⟩
  · exact List.mem_takeWhile_imp (List.mem_reverse.mp member)
  · rw [trimEnd, <- List.reverse_append, List.takeWhile_append_dropWhile, List.reverse_reverse]

/-- All that is trimmed off are blanks in front of a text and behind it. -/
theorem exists_trim (text : List Char) :
    ∃ front back, Blank front ∧ Blank back ∧ text = front ++ (trim text ++ back) := by
  rcases exists_trimEnd (trimStart text) with ⟨back, blank, split⟩
  refine ⟨text.takeWhile isBlank, back, fun _ => List.mem_takeWhile_imp, blank, ?_⟩
  rw [trim, <- split]
  exact List.takeWhile_append_dropWhile.symm

/-- A solid text has nothing to be trimmed. -/
theorem trim_of_solid (solid : Solid text) : trim text = text :=
  @trim_append text [] nofun
    (fun character first => solid character (List.mem_of_mem_head? first))
    fun character last => solid character (List.mem_of_getLast? last)

/-- Trimming leaves the characters that are not blank. -/
theorem mem_trim {character : Char} (member : character ∈ text)
    (filled : isBlank character = false) : character ∈ trim text := by
  have stays : forall {part : List Char}, character ∈ part ->
      character ∈ part.dropWhile isBlank := by
    intro part among
    rw [<- List.takeWhile_append_dropWhile (p := isBlank) (l := part)] at among
    rcases List.mem_append.mp among with blank | kept
    · rw [List.mem_takeWhile_imp blank] at filled
      contradiction
    · exact kept
  exact List.mem_reverse.mpr (stays (List.mem_reverse.mpr (stays member)))

end Blanks

section Words

/-- Words with blanks in front of each of them, and perhaps behind the last one. -/
inductive Spaced : List (List Char) -> List Char -> Prop
  | last {gap} (blank : Blank gap) : Spaced [] gap
  | next {gap word others rest} (blank : Blank gap) (apart : gap ≠ []) (filled : word ≠ [])
      (solid : Solid word) (spaced : Spaced others rest) :
      Spaced (word :: others) (gap ++ (word ++ rest))

theorem words_cons_blank {character : Char} (blank : isBlank character = true)
    (text : List Char) : words (character :: text) = words text := by
  simp [words, pieces, blank]

theorem words_blank_append {gap : List Char} (blank : Blank gap) (text : List Char) :
    words (gap ++ text) = words text := by
  induction gap with
  | nil => rfl
  | cons character gap ih =>
      rw [Blank, List.forall_mem_cons] at blank
      rw [List.cons_append, words_cons_blank blank.1, ih blank.2]

/-- A word is cut off where a blank follows it or nothing. -/
theorem words_solid_append {word rest : List Char} (filled : word ≠ []) (solid : Solid word)
    (apart : forall character, character ∈ rest.head? -> isBlank character = true) :
    words (word ++ rest) = word :: words rest := by
  have kept : (!word.isEmpty) = true := by simpa using filled
  cases rest with
  | nil =>
    rw [List.append_nil, words, pieces_eq_singleton solid]
    simpa [words, pieces] using filled
  | cons character rest =>
      have blank := apart character rfl
      rw [words_cons_blank blank, words, pieces_append solid blank, List.filter_cons, if_pos kept,
        words]

namespace Spaced

variable {fields : List (List Char)} {text : List Char}

theorem head?_blank (spaced : Spaced fields text) :
    forall character, character ∈ text.head? -> isBlank character = true := by
  cases spaced with
  | last blank => exact fun character first => blank character (List.mem_of_mem_head? first)
  | next blank apart =>
      intro character first
      rw [List.head?_append_of_ne_nil _ apart] at first
      exact blank character (List.mem_of_mem_head? first)

/-- Fields behind one space each, on a line. -/
theorem of_line {fields : List (List Char)}
    (fielded : forall field, field ∈ fields -> field ≠ [] ∧ Solid field) :
    Spaced fields (fields.flatMap (fun field => ' ' :: field) ++ ['\n']) := by
  induction fields with
  | nil => exact .last (by decide)
  | cons field fields ih =>
      rw [List.forall_mem_cons] at fielded
      have first := @Spaced.next [' '] field fields _ (by decide) (List.cons_ne_nil _ _)
        fielded.1.1 fielded.1.2 (ih fielded.2)
      simpa using first

theorem words_eq (spaced : Spaced fields text) : words text = fields := by
  induction spaced with
  | last blank =>
      have nothing := words_blank_append blank []
      rw [List.append_nil] at nothing
      exact nothing
  | next blank apart filled solid spaced ih =>
      rw [words_blank_append blank, words_solid_append filled solid spaced.head?_blank, ih]

/-- A character that is not blank stands in one of the words. -/
theorem exists_word (spaced : Spaced fields text) {character : Char} (member : character ∈ text)
    (filled : isBlank character = false) : ∃ field, field ∈ fields ∧ character ∈ field := by
  have clean : forall {gap : List Char}, Blank gap -> character ∉ gap := by
    intro gap blank inside
    rw [blank character inside] at filled
    contradiction
  induction spaced with
  | last blank => exact absurd member (clean blank)
  | @next gap word others rest blank apart filled solid spaced ih =>
      rcases List.mem_append.mp member with gap | member
      · exact absurd gap (clean blank)
      · rcases List.mem_append.mp member with inside | member
        · exact ⟨word, List.mem_cons_self, inside⟩
        · rcases ih member with ⟨field, among, inside⟩
          exact ⟨field, List.mem_cons_of_mem _ among, inside⟩

end Spaced

/-- A text is some words, with blanks between them and perhaps around them. -/
inductive Worded : List (List Char) -> List Char -> Prop
  | blank {gap} (blank : Blank gap) : Worded [] gap
  | words {gap word others rest} (blank : Blank gap) (filled : word ≠ []) (solid : Solid word)
      (spaced : Spaced others rest) : Worded (word :: others) (gap ++ (word ++ rest))

theorem Worded.words_eq {fields : List (List Char)} {text : List Char}
    (worded : Worded fields text) : Text.words text = fields := by
  cases worded with
  | blank blank => exact (Spaced.last blank).words_eq
  | words blank filled solid spaced =>
      rw [words_blank_append blank, words_solid_append filled solid spaced.head?_blank,
        spaced.words_eq]

/-- Every text is made of words.  A character in front of a text is one more blank, goes on with
the first word, or is a word of its own. -/
theorem exists_worded (text : List Char) : ∃ fields, Worded fields text := by
  induction text with
  | nil => exact ⟨[], .blank nofun⟩
  | cons character text ih =>
      rcases ih with ⟨fields, worded⟩
      by_cases blank : isBlank character = true
      · cases worded with
        | blank gap => exact ⟨[], .blank (List.forall_mem_cons.mpr ⟨blank, gap⟩)⟩
        | @words gap word others rest apart filled solid spaced =>
            exact ⟨_, @Worded.words (character :: gap) word others rest
              (List.forall_mem_cons.mpr ⟨blank, apart⟩) filled solid spaced⟩
      · have letter := Bool.eq_false_iff.mpr blank
        cases worded with
        | blank gap =>
            exact ⟨_, @Worded.words [] [character] [] text nofun (List.cons_ne_nil _ _)
              (List.forall_mem_cons.mpr ⟨letter, nofun⟩) (.last gap)⟩
        | @words gap word others rest apart filled solid spaced =>
            cases gap with
            | nil =>
                exact ⟨_, @Worded.words [] (character :: word) others rest nofun
                  (List.cons_ne_nil _ _) (List.forall_mem_cons.mpr ⟨letter, solid⟩) spaced⟩
            | cons first gap =>
                exact ⟨_, @Worded.words [] [character] (word :: others) _ nofun
                  (List.cons_ne_nil _ _) (List.forall_mem_cons.mpr ⟨letter, nofun⟩)
                  (.next apart (List.cons_ne_nil _ _) filled solid spaced)⟩

/-- A character that is not blank stands in one of the words. -/
theorem Worded.exists_word {fields : List (List Char)} {text : List Char}
    (worded : Worded fields text) {character : Char} (member : character ∈ text)
    (filled : isBlank character = false) : ∃ field, field ∈ fields ∧ character ∈ field := by
  have clean : forall {gap : List Char}, Blank gap -> character ∉ gap := by
    intro gap blank inside
    rw [blank character inside] at filled
    contradiction
  cases worded with
  | blank blank => exact absurd member (clean blank)
  | words blank some solid spaced =>
      rcases List.mem_append.mp member with gap | member
      · exact absurd gap (clean blank)
      · rcases List.mem_append.mp member with inside | behind
        · exact ⟨_, List.mem_cons_self, inside⟩
        · rcases spaced.exists_word behind filled with ⟨field, among, inside⟩
          exact ⟨field, List.mem_cons_of_mem _ among, inside⟩

theorem worded_iff {fields : List (List Char)} {text : List Char} :
    Worded fields text <-> Text.words text = fields := by
  refine ⟨Worded.words_eq, fun same => ?_⟩
  rcases exists_worded text with ⟨others, worded⟩
  rwa [<- same, worded.words_eq]

end Words

section Lines

variable {line : List Char} (unbroken : '\n' ∉ line)

include unbroken

theorem not_lineFeed :
    forall character, character ∈ line -> decide (character = '\n') = false := by
  intro character member
  exact decide_eq_false fun same => unbroken (same ▸ member)

theorem lines_append (rest : List Char) :
    lines (line ++ '\n' :: rest) = dropTrailing '\r' line :: lines rest := by
  rw [lines, linesWith, pieces_append (not_lineFeed unbroken) (by simp)]
  unfold lines linesWith
  cases shape : pieces (fun character => decide (character = '\n')) rest with
  | nil => exact absurd shape (pieces_ne_nil _ rest)
  | cons piece others => rfl

theorem lines_eq_singleton (filled : line ≠ []) : lines line = [line] := by
  rw [lines, linesWith, pieces_eq_singleton (not_lineFeed unbroken)]
  simpa [finishLines] using filled

end Lines

section Repeated

variable {α : Type} [DecidableEq α] {first second : α}

/-- A mark is dropped as often as it stands in front. -/
theorem dropRepeated_append (count : Nat) (rest : List α) :
    dropRepeated first second ((List.replicate count [first, second]).flatten ++ rest) =
      dropRepeated first second rest := by
  induction count with
  | zero => rfl
  | succ count ih =>
      rw [List.replicate_succ, List.flatten_cons, List.append_assoc]
      exact (if_pos ⟨rfl, rfl⟩).trans ih

theorem dropRepeated_of_not_mem {text : List α} (absent : second ∉ text) :
    dropRepeated first second text = text := by
  unfold dropRepeated
  split
  · rename_i one two rest
    refine if_neg fun same => absent ?_
    rw [<- same.2]
    exact List.mem_cons_of_mem _ List.mem_cons_self
  · rfl

/-- Nothing else is dropped. -/
theorem exists_dropRepeated (first second : α) (text : List α) :
    ∃ count, text =
      (List.replicate count [first, second]).flatten ++ dropRepeated first second text := by
  fun_induction dropRepeated first second text with
  | case1 one two rest same ih =>
      rcases ih with ⟨count, split⟩
      rcases same with ⟨rfl, rfl⟩
      refine ⟨count + 1, ?_⟩
      rw [List.replicate_succ, List.flatten_cons, List.append_assoc, <- split]
      rfl
  | case2 one two rest other => exact ⟨0, rfl⟩
  | case3 text => exact ⟨0, rfl⟩

end Repeated

end Text
end MemoryProbe
