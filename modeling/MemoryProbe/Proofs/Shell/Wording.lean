import MemoryProbe.Proofs.Text.Figures
import MemoryProbe.Shell.Command

namespace MemoryProbe

/-!
The words of a line.  The first word names the command, one blank ends it, and what follows up to
the line ends is the argument, with all blanks in it.  A search for a text takes the argument as it
is, and the selection of a process takes the number that the argument names.
-/

namespace Text

/-- The cut is at the first separator. -/
theorem splitOnce?_eq_some_iff {α : Type} {separates : α -> Bool} {text front rest : List α} :
    splitOnce? separates text = some (front, rest) <->
      ∃ separator, separates separator = true ∧
        (forall element, element ∈ front -> separates element = false) ∧
        text = front ++ separator :: rest := by
  constructor
  · intro split
    induction text generalizing front with
    | nil => cases split
    | cons element text ih =>
        unfold splitOnce? at split
        split at split
        · rename_i cuts
          cases split
          exact ⟨element, cuts, List.forall_mem_nil _, rfl⟩
        · rename_i whole
          rcases Option.map_eq_some_iff.mp split with ⟨⟨before, after⟩, later, same⟩
          cases same
          rcases ih later with ⟨separator, cuts, clean, rfl⟩
          exact ⟨separator, cuts,
            List.forall_mem_cons.mpr ⟨Bool.eq_false_of_not_eq_true whole, clean⟩, rfl⟩
  · rintro ⟨separator, cuts, clean, rfl⟩
    exact splitOnce?_append clean cuts rest

end Text

namespace ShellCommand

open Text

/-! ## Line ends -/

theorem dropLineEnds_eq_rdropWhile (line : List Char) :
    dropLineEnds line = line.rdropWhile endsLine :=
  rfl

/-- Carriage returns and line feeds are blanks. -/
theorem isBlank_of_endsLine {character : Char} (ends : endsLine character = true) :
    isBlank character = true := by
  rw [endsLine, Bool.or_eq_true, beq_iff_eq, beq_iff_eq] at ends
  rcases ends with rfl | rfl <;> decide

/-- What is dropped at the end of a line are its line ends. -/
theorem exists_lineEnds (line : List Char) :
    ∃ ends, (forall character, character ∈ ends -> endsLine character = true) ∧
      line = dropLineEnds line ++ ends := by
  refine ⟨(line.reverse.takeWhile endsLine).reverse, fun character member => ?_, ?_⟩
  · exact List.mem_takeWhile_imp (List.mem_reverse.mp member)
  · rw [dropLineEnds, <- List.reverse_append, List.takeWhile_append_dropWhile,
      List.reverse_reverse]

theorem not_endsLine_of_dropLineEnds (line : List Char) :
    forall character, character ∈ (dropLineEnds line).getLast? -> endsLine character = false := by
  intro character last
  rcases List.getLast?_eq_some_iff.mp last with ⟨front, split⟩
  have filled : line.rdropWhile endsLine ≠ [] := by
    rw [<- dropLineEnds_eq_rdropWhile, split]
    simp
  have kept := List.rdropWhile_last_not endsLine line filled
  simp only [<- dropLineEnds_eq_rdropWhile, split, List.getLast_append_singleton] at kept
  exact Bool.eq_false_of_not_eq_true kept

/-- Line ends behind a text that does not end with one are all that is dropped. -/
theorem dropLineEnds_append {line ends : List Char}
    (kept : forall character, character ∈ line.getLast? -> endsLine character = false)
    (ended : forall character, character ∈ ends -> endsLine character = true) :
    dropLineEnds (line ++ ends) = line := by
  have turned : forall character, character ∈ ends.reverse -> endsLine character = true :=
    fun character member => ended character (List.mem_reverse.mp member)
  rw [dropLineEnds, List.reverse_append, List.dropWhile_append_of_pos turned]
  change line.rdropWhile endsLine = line
  refine List.rdropWhile_eq_self_iff.mpr fun filled last => ?_
  rw [kept _ (List.getLast?_eq_some_getLast filled)] at last
  contradiction

/-! ## The first word and the argument -/

/-- A line is a command of one letter with an argument: blanks may stand before the letter, one
blank stands behind it, and the argument is all that follows before the line ends. -/
inductive Commands : List Char -> Char -> List Char -> Prop
  | intro {front argument ends : List Char} {letter blank : Char} (before : Blank front)
    (apart : isBlank blank = true) (filled : argument ≠ [])
    (kept : forall character, character ∈ argument.getLast? -> endsLine character = false)
    (ended : forall character, character ∈ ends -> endsLine character = true) :
    Commands (front ++ letter :: blank :: (argument ++ ends)) letter argument

theorem splitWord_append {front word : List Char} {blank : Char} (before : Blank front)
    (filled : word ≠ []) (solid : Solid word) (apart : isBlank blank = true) (rest : List Char) :
    splitWord (front ++ (word ++ blank :: rest)) = (word, rest) := by
  have started : trimStart (front ++ (word ++ blank :: rest)) = word ++ blank :: rest := by
    rw [trimStart, List.dropWhile_append_of_pos before]
    refine dropWhile_blank_of_head? fun character first => solid character ?_
    rw [List.head?_append_of_ne_nil _ filled] at first
    exact List.mem_of_mem_head? first
  unfold splitWord
  dsimp only
  rw [started, splitOnce?_append solid apart]
  rfl

/-- Where something follows the first word, blanks stand before the word and one blank behind
it. -/
theorem exists_blank_of_splitWord {line word rest : List Char} (split : splitWord line = (word, rest))
    (filled : rest ≠ []) :
    ∃ front blank, Blank front ∧ isBlank blank = true ∧ line = front ++ (word ++ blank :: rest) := by
  unfold splitWord at split
  dsimp only at split
  cases cut : splitOnce? isBlank (trimStart line) with
  | none =>
      rw [cut] at split
      cases split
      exact absurd rfl filled
  | some sides =>
      rw [cut] at split
      cases split
      rcases splitOnce?_eq_some_iff.mp cut with ⟨blank, apart, -, started⟩
      refine ⟨line.takeWhile isBlank, blank, fun _ => List.mem_takeWhile_imp, apart, ?_⟩
      rw [<- started]
      exact List.takeWhile_append_dropWhile.symm

/-- The last character of a command with an argument is that of the argument. -/
theorem getLast?_argument {argument : List Char} (filled : argument ≠ []) (front word : List Char)
    (blank : Char) : (front ++ (word ++ blank :: argument)).getLast? = argument.getLast? := by
  rw [List.getLast?_append_of_ne_nil _ (by simp), List.getLast?_append_of_ne_nil _ (by simp),
    List.getLast?_cons_of_ne_nil filled]

section Commands

variable {line argument : List Char} {letter : Char}

/-- A line is such a command exactly if it is cut so. -/
theorem commands_iff (solid : isBlank letter = false) :
    Commands line letter argument <->
      splitWord (dropLineEnds line) = ([letter], argument) ∧ argument ≠ [] := by
  constructor
  · rintro ⟨before, apart, filled, kept, ended⟩
    rename_i front ends blank
    have whole : front ++ letter :: blank :: (argument ++ ends) =
        (front ++ ([letter] ++ blank :: argument)) ++ ends := by simp
    rw [<- getLast?_argument filled front [letter] blank] at kept
    rw [whole, dropLineEnds_append kept ended]
    exact ⟨splitWord_append before (List.cons_ne_nil _ _) (by simpa [Solid] using solid) apart
      argument, filled⟩
  · rintro ⟨split, filled⟩
    rcases exists_blank_of_splitWord split filled with ⟨front, blank, before, apart, cut⟩
    rcases exists_lineEnds line with ⟨ends, ended, whole⟩
    have kept := not_endsLine_of_dropLineEnds line
    rw [cut, getLast?_argument filled] at kept
    have line_eq : line = front ++ letter :: blank :: (argument ++ ends) := by
      rw [whole, cut]
      simp
    rw [line_eq]
    exact .intro before apart filled kept ended

/-- The letter is the first word of the line. -/
theorem Commands.head?_words (solid : isBlank letter = false)
    (commands : Commands line letter argument) : (words line).head? = some [letter] := by
  cases commands with
  | intro before apart filled kept ended =>
      rename_i front ends blank
      have cut : words ([letter] ++ blank :: (argument ++ ends)) =
          [letter] :: words (blank :: (argument ++ ends)) := by
        refine words_solid_append (List.cons_ne_nil _ _) (by simpa [Solid] using solid) ?_
        rintro character ⟨⟩
        exact apart
      rw [words_blank_append before]
      exact congrArg List.head? cut

/-- A command with what follows up to the line ends, if more follows than line ends. -/
theorem commands_of_rest {front rest : List Char} {blank : Char} (before : Blank front)
    (apart : isBlank blank = true) (filled : dropLineEnds rest ≠ []) :
    Commands (front ++ letter :: blank :: rest) letter (dropLineEnds rest) := by
  rcases exists_lineEnds rest with ⟨ends, ended, whole⟩
  have commands := @Commands.intro front (dropLineEnds rest) ends letter blank before apart filled
    (not_endsLine_of_dropLineEnds rest) ended
  rwa [<- whole] at commands

theorem trim_dropLineEnds (rest : List Char) : trim (dropLineEnds rest) = trim rest := by
  rcases exists_lineEnds rest with ⟨ends, ended, whole⟩
  have blank : Blank ends := fun character member => isBlank_of_endsLine (ended character member)
  conv_rhs => rw [whole]
  exact (trim_append_blank blank).symm

end Commands

/-! ## Numbers as arguments -/

section Arguments

variable {rest : List Char} {value : Nat}

/-- A number that an argument names is the process that is selected, if it is small enough. -/
theorem ofPid_of_denotes (denotes : Denotes (trim rest) value) :
    ofPid rest = if value < 2 ^ 32 then .ok (.selectPid (UInt32.ofNat value))
      else .error (.invalidPid (String.ofList (trim rest))) := by
  have filled : ¬ (trim rest).isEmpty = true := fun empty =>
    denotes.ne_nil (List.isEmpty_iff.mp empty)
  unfold ofPid
  dsimp only
  rw [if_neg filled, ofText?_of_names denotes.names]
  split_ifs <;> rfl

theorem ofPid_eq_ok_iff {command : ShellCommand} :
    ofPid rest = .ok command <-> ∃ pid, Names rest pid.toNat ∧ command = .selectPid pid := by
  constructor
  · intro asked
    unfold ofPid at asked
    dsimp only at asked
    split at asked
    · cases asked
    · split at asked
      · rename_i pid read
        exact ⟨pid, names_trim_iff.mp (ofText?_eq_some_iff.mp read), (Except.ok.inj asked).symm⟩
      · cases asked
  · rintro ⟨pid, names, rfl⟩
    rw [ofPid_of_denotes (names_iff.mp names), if_pos pid.toNat_lt, UInt32.ofNat_toNat]

theorem ofPatternText_eq_ok_iff {command : ShellCommand} :
    ofPatternText rest = .ok command <-> rest ≠ [] ∧ command = .scan (utf8Bytes rest) := by
  unfold ofPatternText
  split
  · rename_i empty
    exact ⟨nofun, fun asked => absurd (List.isEmpty_iff.mp empty) asked.1⟩
  · rename_i filled
    constructor
    · exact fun asked => ⟨mt List.isEmpty_iff.mpr filled, (Except.ok.inj asked).symm⟩
    · rintro ⟨-, rfl⟩
      rfl

theorem ofPatternHex_eq_ok_iff {command : ShellCommand} :
    ofPatternHex rest = .ok command <->
      ∃ bytes, Pattern.ofHex rest = .ok bytes ∧ command = .scan bytes := by
  unfold ofPatternHex
  cases Pattern.ofHex rest with
  | error cause => exact ⟨nofun, nofun⟩
  | ok bytes =>
      constructor
      · exact fun asked => ⟨bytes, rfl, (Except.ok.inj asked).symm⟩
      · rintro ⟨_, ⟨⟩, rfl⟩
        rfl

end Arguments

/-! ## Commands with an argument -/

section Lines

variable {line argument rest : List Char}

theorem ofLine_text (commands : Commands line 's' argument) :
    ofLine line = .ok (.scan (utf8Bytes argument)) := by
  rcases (commands_iff (by decide)).mp commands with ⟨split, filled⟩
  have some : ¬ argument.isEmpty = true := fun empty => filled (List.isEmpty_iff.mp empty)
  unfold ofLine
  rw [split]
  exact if_neg some

theorem ofLine_hex (commands : Commands line 'x' argument) :
    ofLine line = ofPatternHex argument := by
  unfold ofLine
  rw [((commands_iff (by decide)).mp commands).1]
  rfl

theorem ofLine_pid (commands : Commands line 'p' argument) : ofLine line = ofPid argument := by
  unfold ofLine
  rw [((commands_iff (by decide)).mp commands).1]
  rfl

/-- No other line than one whose first word is a letter for it asks for a search or for a
process. -/
theorem exists_split {command : ShellCommand} (asked : ofLine line = .ok command)
    (argued : (∃ bytes, command = .scan bytes) ∨ ∃ pid, command = .selectPid pid) :
    ∃ letter rest, splitWord (dropLineEnds line) = ([letter], rest) ∧
      ((letter = 's' ∧ ofPatternText rest = .ok command) ∨
        (letter = 'x' ∧ ofPatternHex rest = .ok command) ∨
        (letter = 'p' ∧ ofPid rest = .ok command)) := by
  rcases split : splitWord (dropLineEnds line) with ⟨word, rest⟩
  unfold ofLine at asked
  rw [split] at asked
  dsimp only at asked
  split at asked
  case h_6 named =>
    have letters : word = "p".toList := by rw [<- named, String.toList_ofList]
    exact ⟨'p', rest, by rw [letters]; rfl, Or.inr (Or.inr ⟨rfl, asked⟩)⟩
  case h_13 named =>
    have letters : word = "s".toList := by rw [<- named, String.toList_ofList]
    exact ⟨'s', rest, by rw [letters]; rfl, Or.inl ⟨rfl, asked⟩⟩
  case h_14 named =>
    have letters : word = "x".toList := by rw [<- named, String.toList_ofList]
    exact ⟨'x', rest, by rw [letters]; rfl, Or.inr (Or.inl ⟨rfl, asked⟩)⟩
  all_goals
    cases asked <;> rcases argued with ⟨_, ⟨⟩⟩ | ⟨_, ⟨⟩⟩

/-- A line asks for a process exactly if its argument names one. -/
theorem ofLine_eq_selectPid_iff {pid : UInt32} :
    ofLine line = .ok (.selectPid pid) <->
      ∃ argument, Commands line 'p' argument ∧ Names argument pid.toNat := by
  constructor
  · intro asked
    rcases exists_split asked (Or.inr ⟨pid, rfl⟩) with
      ⟨letter, rest, split, ⟨-, text⟩ | ⟨-, hex⟩ | ⟨rfl, number⟩⟩
    · cases (ofPatternText_eq_ok_iff.mp text).2
    · rcases ofPatternHex_eq_ok_iff.mp hex with ⟨_, -, ⟨⟩⟩
    · rcases ofPid_eq_ok_iff.mp number with ⟨_, names, ⟨⟩⟩
      exact ⟨rest, (commands_iff (by decide)).mpr ⟨split, names.ne_nil⟩, names⟩
  · rintro ⟨argument, commands, names⟩
    rw [ofLine_pid commands]
    exact ofPid_eq_ok_iff.mpr ⟨pid, names, rfl⟩

/-- A line asks for a search exactly if its argument is the text or the bytes to search for. -/
theorem ofLine_eq_scan_iff {bytes : List UInt8} :
    ofLine line = .ok (.scan bytes) <->
      (∃ argument, Commands line 's' argument ∧ bytes = utf8Bytes argument) ∨
      ∃ argument, Commands line 'x' argument ∧ Pattern.ofHex argument = .ok bytes := by
  constructor
  · intro asked
    rcases exists_split asked (Or.inl ⟨bytes, rfl⟩) with
      ⟨letter, rest, split, ⟨rfl, text⟩ | ⟨rfl, hex⟩ | ⟨-, number⟩⟩
    · rcases ofPatternText_eq_ok_iff.mp text with ⟨filled, same⟩
      exact Or.inl ⟨rest, (commands_iff (by decide)).mpr ⟨split, filled⟩,
        ShellCommand.scan.inj same⟩
    · rcases ofPatternHex_eq_ok_iff.mp hex with ⟨_, read, ⟨⟩⟩
      have filled : rest ≠ [] := by
        rintro rfl
        cases read
      exact Or.inr ⟨rest, (commands_iff (by decide)).mpr ⟨split, filled⟩, read⟩
    · rcases ofPid_eq_ok_iff.mp number with ⟨_, -, ⟨⟩⟩
  · rintro (⟨argument, commands, rfl⟩ | ⟨argument, commands, read⟩)
    · exact ofLine_text commands
    · rw [ofLine_hex commands]
      exact ofPatternHex_eq_ok_iff.mpr ⟨bytes, read, rfl⟩

/-- A number behind the letter is the process that is asked for, whatever blanks stand around
it. -/
theorem ofLine_of_denotes {front gap written back : List Char} {value : Nat} (before : Blank front)
    (apart : Blank gap) (some : gap ≠ []) (behind : Blank back) (denotes : Denotes written value) :
    ofLine (front ++ 'p' :: (gap ++ (written ++ back))) =
      if value < 2 ^ 32 then .ok (.selectPid (UInt32.ofNat value))
      else .error (.invalidPid (String.ofList written)) := by
  rcases List.exists_cons_of_ne_nil some with ⟨blank, others, rfl⟩
  rw [Blank, List.forall_mem_cons] at apart
  have argument : trim (dropLineEnds (others ++ (written ++ back))) = written := by
    rw [trim_dropLineEnds, trim_blank_append apart.2, trim_append_blank behind,
      trim_of_solid denotes.solid]
  have filled : dropLineEnds (others ++ (written ++ back)) ≠ [] := by
    intro empty
    rw [empty] at argument
    exact denotes.ne_nil argument.symm
  have asked := ofLine_pid (commands_of_rest before apart.1 filled)
  rw [List.cons_append, asked, ofPid_of_denotes (argument.symm ▸ denotes), argument]

end Lines

/-- A search for a text is for its bytes, with every blank that is part of it: one blank behind the
letter is left out, and the line ends behind the text.  A number behind the other letter selects
that process if it is below 2^32, however it is written and whatever blanks stand around it, and is
refused if it is not.  Nothing else asks for a search or for a process. -/
theorem lines_keep_arguments :
    (forall (front text : List Char) (blank : Char), Blank front -> isBlank blank = true ->
      text ≠ [] -> text.getLast? ≠ some '\r' -> text.getLast? ≠ some '\n' ->
      ofLine (front ++ 's' :: blank :: text) = .ok (.scan (utf8Bytes text))) ∧
    (forall (front gap back : List Char) (pid : UInt32), Blank front -> Blank gap -> gap ≠ [] ->
      Blank back -> forall written, written = (toString pid.toNat).toList ∨
          written = ("0x" ++ hex pid.toNat).toList ->
        ofLine (front ++ 'p' :: (gap ++ (written ++ back))) = .ok (.selectPid pid)) ∧
    (forall (front gap written back : List Char) (value : Nat), Blank front -> Blank gap ->
      gap ≠ [] -> Blank back -> Denotes written value -> 2 ^ 32 ≤ value ->
        ofLine (front ++ 'p' :: (gap ++ (written ++ back))) =
          .error (.invalidPid (String.ofList written))) ∧
    (forall line pid, ofLine line = .ok (.selectPid pid) <->
      ∃ argument, Commands line 'p' argument ∧ Names argument pid.toNat) ∧
    (forall line bytes, ofLine line = .ok (.scan bytes) <->
      (∃ argument, Commands line 's' argument ∧ bytes = utf8Bytes argument) ∨
      ∃ argument, Commands line 'x' argument ∧ Pattern.ofHex argument = .ok bytes) ∧
    (forall line pid, ofLine line = .ok (.selectPid pid) -> (words line).head? = some ['p']) ∧
    forall line bytes, ofLine line = .ok (.scan bytes) ->
      (words line).head? = some ['s'] ∨ (words line).head? = some ['x'] := by
  refine ⟨fun front text blank before apart filled noReturn noFeed => ?_,
    fun front gap back pid before apart some behind written printed => ?_,
    fun front gap written back value before apart some behind denotes large => ?_,
    fun line pid => ofLine_eq_selectPid_iff, fun line bytes => ofLine_eq_scan_iff,
    fun line pid asked => ?_, fun line bytes asked => ?_⟩
  · have kept : forall character, character ∈ text.getLast? -> endsLine character = false := by
      intro character last
      rw [endsLine, Bool.or_eq_false_iff, beq_eq_false_iff_ne, beq_eq_false_iff_ne]
      exact ⟨fun same => noReturn (same ▸ last), fun same => noFeed (same ▸ last)⟩
    have commands := @Commands.intro front text [] 's' blank before apart filled kept nofun
    rw [List.append_nil] at commands
    exact ofLine_text commands
  · have denotes : Denotes written pid.toNat := by
      rcases printed with rfl | rfl
      · exact denotes_toString _
      · exact denotes_hex _
    rw [ofLine_of_denotes before apart some behind denotes, if_pos pid.toNat_lt,
      UInt32.ofNat_toNat]
  · rw [ofLine_of_denotes before apart some behind denotes, if_neg (Nat.not_lt.mpr large)]
  · rcases ofLine_eq_selectPid_iff.mp asked with ⟨argument, commands, -⟩
    exact commands.head?_words (by decide)
  · rcases ofLine_eq_scan_iff.mp asked with ⟨argument, commands, -⟩ | ⟨argument, commands, -⟩
    · exact Or.inl (commands.head?_words (by decide))
    · exact Or.inr (commands.head?_words (by decide))

/-- A text of blanks and a letter, behind other blanks; and a number with blanks around it. -/
theorem lines_keep_arguments_of_spaced :
    ofLine ("\u3000\n".toList ++ 's' :: '\t' :: " \n é ".toList) =
        .ok (.scan [0x20, 0x0A, 0x20, 0xC3, 0xA9, 0x20]) ∧
      ofLine (" ".toList ++ 'p' :: ("\t ".toList ++ ("0xffffffff".toList ++ " \n".toList))) =
        .ok (.selectPid 0xFFFFFFFF) ∧
      ofLine ([] ++ 'p' :: ([' '] ++ ("4294967296".toList ++ []))) =
        .error (.invalidPid "4294967296") := by
  refine ⟨?_, ?_, ?_⟩
  · exact lines_keep_arguments.1 "\u3000\n".toList " \n é ".toList '\t' (by decide) (by decide)
      (by decide) (by decide) (by decide)
  · exact lines_keep_arguments.2.1 " ".toList "\t ".toList " \n".toList 0xFFFFFFFF (by decide)
      (by decide) (by decide) (by decide) _ (Or.inr (by decide))
  · exact lines_keep_arguments.2.2.1 [] [' '] "4294967296".toList [] 4294967296 (by decide)
      (by decide) (by decide) (by decide) (denotes_toString 4294967296) (by decide)

end ShellCommand
end MemoryProbe
