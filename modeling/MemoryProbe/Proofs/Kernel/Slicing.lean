import Mathlib
import MemoryProbe.Proofs.Kernel.Status

namespace MemoryProbe

/-!
A status line read by places in its bytes.  The kernel's text is cut by bytes, in front of the
first parenthesis that opens, between it and the last that closes, and behind that one; the
fields are counted as the manual does, from the third on.  Here each cut is made only between
two places where a character begins, in their order, and each count is checked before it is
lowered.  No text fails these checks, and the line is the one that is read by characters.  So
both ways read a printed line back.
-/

namespace StatLine

/-- The field of a number, which must not be in front of the fields that are counted. -/
def countedField (fields : List (List Char)) (number : Nat) :
    Except Fault (Option (List Char)) :=
  if 3 ≤ number then .ok fields[number - 3]? else .error .overflow

/-- What a reader makes of the field of a number. -/
def readField {α : Type} (text : List Char) (read : List Char -> Option α)
    (fields : List (List Char)) (number : Nat) : Except (Halt MemoryError) α := do
  let field? <- (countedField fields number : Except Fault (Option (List Char)))
  orMalformed text (field?.bind read)

/-- The status line of a number, a name and the fields behind it. -/
def readFields (text : List Char) (pid : UInt32) (name : List Char)
    (fields : List (List Char)) : Except (Halt MemoryError) StatLine := do
  let parentPid <- readField text Text.natural32? fields 4
  let priority <- readField text Text.integer32? fields 18
  let nice <- readField text Text.integer32? fields 19
  let threads <- readField text Text.natural32? fields 20
  return {
    pid := pid
    name := String.ofList name
    parentPid := parentPid
    priority := priority
    nice := nice
    threads := threads }

/-- The status line of a text, read by places in its bytes. -/
def ofPlaces (text : List Char) : Except (Halt MemoryError) StatLine := do
  let bytes := Text.utf8Bytes text
  let opening <- orMalformed text (Text.firstPlace? 0x28 bytes)
  let closing <- orMalformed text (Text.lastPlace? 0x29 bytes)
  let front <- (Text.between bytes 0 opening : Except Fault (List Char))
  let pid <- orMalformed text (Text.natural32? (Text.trim front))
  let name <- (Text.between bytes (opening + 1) closing : Except Fault (List Char))
  let behind <- (Text.between bytes (closing + 1) bytes.length : Except Fault (List Char))
  readFields text pid name (Text.words behind)

variable {text front name rest : List Char}

/-! ## Fields -/

theorem readField_eq {α : Type} (read : List Char -> Option α) (fields : List (List Char))
    {number : Nat} (counted : 3 ≤ number) :
    readField text read fields number = orMalformed text ((field? fields number).bind read) := by
  rw [readField, countedField, if_pos counted]
  rfl

theorem orMalformed_bind {α β : Type} (part? : Option α) (next : α -> Option β) :
    (orMalformed text part? >>= fun part => orMalformed text (next part)) =
      orMalformed text (part? >>= next) := by
  cases part? <;> rfl

/-- All numbers of fields are counted, so the fields are read or refused. -/
theorem readFields_eq (pid : UInt32) (name : List Char) (fields : List (List Char)) :
    readFields text pid name fields = orMalformed text (ofFields? pid name fields) := by
  have done : forall line : StatLine, (pure line : Except (Halt MemoryError) StatLine) =
      orMalformed text (pure line) := fun _ => rfl
  unfold readFields ofFields?
  rw [readField_eq _ fields (by decide : 3 ≤ 4), readField_eq _ fields (by decide : 3 ≤ 18),
    readField_eq _ fields (by decide : 3 ≤ 19), readField_eq _ fields (by decide : 3 ≤ 20)]
  simp only [done, orMalformed_bind]

/-! ## Cuts -/

theorem between_front (back : List Char) :
    Text.between (Text.utf8Bytes (front ++ back)) 0 (Text.utf8Bytes front).length = .ok front :=
  Text.between_append [] front back

theorem between_name :
    Text.between (Text.utf8Bytes (front ++ '(' :: (name ++ ')' :: rest)))
      ((Text.utf8Bytes front).length + 1) (Text.utf8Bytes (front ++ '(' :: name)).length =
        .ok name := by
  have wide : (Text.utf8Bytes (front ++ ['('])).length = (Text.utf8Bytes front).length + 1 :=
    @Text.length_utf8Bytes_concat 0x28 (by decide) front
  have cut := Text.between_append (front ++ ['(']) name (')' :: rest)
  rw [wide, List.append_assoc, List.append_assoc] at cut
  exact cut

theorem between_rest :
    Text.between (Text.utf8Bytes (front ++ ')' :: rest)) ((Text.utf8Bytes front).length + 1)
      (Text.utf8Bytes (front ++ ')' :: rest)).length = .ok rest := by
  have wide : (Text.utf8Bytes (front ++ [')'])).length = (Text.utf8Bytes front).length + 1 :=
    @Text.length_utf8Bytes_concat 0x29 (by decide) front
  have cut := Text.between_append (front ++ [')']) rest []
  rw [wide, List.append_nil, List.append_assoc] at cut
  exact cut

/-! ## Texts -/

section Steps

variable {α β : Type} (part : α) (next : α -> Except (Halt MemoryError) β)

theorem bind_found : (orMalformed text (some part) >>= next) = next part := rfl

theorem bind_missing :
    (orMalformed text (none : Option α) >>= next) = orMalformed text none := rfl

/-- A step that does not fault. -/
theorem bind_lift :
    ((liftM (.ok part : Except Fault α) : Except (Halt MemoryError) α) >>= next) = next part := rfl

end Steps

theorem ofPlaces_named (first : '(' ∉ front) (last : ')' ∉ rest) :
    ofPlaces (front ++ '(' :: (name ++ ')' :: rest)) =
      orMalformed (front ++ '(' :: (name ++ ')' :: rest)) (ofParts? front name rest) := by
  have joined := append_cons_append front name rest '(' ')'
  have opening : Text.firstPlace? 0x28
      (Text.utf8Bytes (front ++ '(' :: (name ++ ')' :: rest))) =
        some (Text.utf8Bytes front).length :=
    @Text.firstPlace?_utf8Bytes 0x28 (by decide) front first _
  have closing : Text.lastPlace? 0x29
      (Text.utf8Bytes (front ++ '(' :: (name ++ ')' :: rest))) =
        some (Text.utf8Bytes (front ++ '(' :: name)).length := by
    rw [joined]
    exact @Text.lastPlace?_utf8Bytes 0x29 (by decide) rest last _
  have behind : Text.between (Text.utf8Bytes (front ++ '(' :: (name ++ ')' :: rest)))
      ((Text.utf8Bytes (front ++ '(' :: name)).length + 1)
      (Text.utf8Bytes (front ++ '(' :: (name ++ ')' :: rest))).length = .ok rest := by
    rw [joined]
    exact between_rest
  unfold ofPlaces ofParts?
  dsimp only
  rw [opening, closing, bind_found, bind_found, between_front, bind_lift]
  cases Text.natural32? (Text.trim front) with
  | none => rw [bind_missing, Option.bind_none]
  | some pid =>
      rw [bind_found, between_name, bind_lift, behind, bind_lift, readFields_eq, Option.bind_some]

theorem ofPlaces_of_reads {line? : Option StatLine} (reads : Reads text line?) :
    ofPlaces text = orMalformed text line? := by
  cases reads with
  | unopened absent =>
      have opening : Text.firstPlace? 0x28 (Text.utf8Bytes text) = none :=
        Text.firstPlace?_eq_none fun member =>
          absent ((Text.mem_utf8Bytes_iff (by decide)).mp member)
      unfold ofPlaces
      dsimp only
      rw [opening, bind_missing]
  | unclosed absent =>
      have closing : Text.lastPlace? 0x29 (Text.utf8Bytes text) = none :=
        Text.lastPlace?_eq_none fun member =>
          absent ((Text.mem_utf8Bytes_iff (by decide)).mp member)
      unfold ofPlaces
      dsimp only
      rw [closing]
      cases Text.firstPlace? 0x28 (Text.utf8Bytes text) with
      | none => rw [bind_missing]
      | some opening => rw [bind_found, bind_missing]
  | @crossed front middle rest first last =>
      have joined := append_cons_append front middle rest ')' '('
      have opening : Text.firstPlace? 0x28
          (Text.utf8Bytes (front ++ ')' :: (middle ++ '(' :: rest))) =
            some (Text.utf8Bytes (front ++ ')' :: middle)).length := by
        rw [joined]
        exact @Text.firstPlace?_utf8Bytes 0x28 (by decide) _ first rest
      have closing : Text.lastPlace? 0x29
          (Text.utf8Bytes (front ++ ')' :: (middle ++ '(' :: rest))) =
            some (Text.utf8Bytes front).length :=
        @Text.lastPlace?_utf8Bytes 0x29 (by decide) _ last front
      -- The name would end before it begins, but what stands in front of it is no number.
      have number : Text.natural32? (Text.trim (front ++ ')' :: middle)) = none :=
        Text.natural32?_trim_eq_none (List.mem_append_right _ List.mem_cons_self)
      unfold ofPlaces
      dsimp only
      rw [opening, closing, bind_found, bind_found, joined, between_front, bind_lift, number,
        bind_missing]
  | named first last => exact ofPlaces_named first last

/-- Whatever the text, each of its parts is cut out between two places in their order where a
character begins, and each field is counted from the third on.  The text is read as it is by
characters, or it is refused. -/
theorem read_or_refused (text : List Char) :
    ofPlaces text = ofText text ∧
      ((∃ line, ofPlaces text = .ok line) ∨
        ofPlaces text = .error (.failure (malformed text))) := by
  rcases exists_reads text with ⟨line?, reads⟩
  have places := ofPlaces_of_reads reads
  exact ⟨places.trans (ofText_of_reads reads).symm, places ▸ orMalformed_cases text line?⟩

/-- The number in front of a name is wanted before the name. -/
example : ofPlaces "7) é (".toList = .error (.failure (malformed "7) é (".toList)) := by cbv

end StatLine

/-! ## Printed lines -/

namespace PrintedLine

/-- A status line is read back as what it was printed from, whatever the name and the other
fields are, if each of its numbers is in range of its type; otherwise it is refused.  Cuts
between bytes make the same of it as cuts between characters. -/
theorem line_reads_back (line : PrintedLine) (rest : List Char)
    (spaced : Text.Spaced line.fields rest) :
    (line.Fits ->
      ∃ stat, StatLine.ofText (line.text rest) = .ok stat ∧
        StatLine.ofPlaces (line.text rest) = .ok stat ∧ line.Shows stat) ∧
    (¬line.Fits ->
      StatLine.ofText (line.text rest) = .error (.failure (StatLine.malformed (line.text rest))) ∧
      StatLine.ofPlaces (line.text rest) =
        .error (.failure (StatLine.malformed (line.text rest)))) := by
  have characters := ofText_text spaced
  have places : StatLine.ofPlaces (line.text rest) = _ :=
    StatLine.ofPlaces_named (not_mem_front (by decide) (by decide)) (not_mem_rest spaced)
  have parts := ofParts?_line spaced
  rw [characters, places]
  refine ⟨fun fits => ⟨line.stat, ?_, ?_, fits.shows⟩, fun wide => ⟨?_, ?_⟩⟩
  · rw [parts.1 fits]
    rfl
  · rw [parts.1 fits]
    rfl
  · rw [parts.2 wide]
    rfl
  · rw [parts.2 wide]
    rfl

/-- A task whose name looks like the rest of its line, with numbers at the ends of their
ranges. -/
def posing : PrintedLine where
  pid := 4294967295
  name := ") S 1 (é".toList
  state := "(".toList
  parentPid := 0
  between := List.replicate 13 ['-']
  thirteen := rfl
  priority := -2147483648
  nice := 2147483647
  threads := 4294967295
  behind := []
  unclosed := by decide

/-- The line of that task is read back.  With one more thread than a word counts it is none. -/
theorem line_reads_back_of_posing :
    (∃ stat,
      StatLine.ofText ("4294967295 () S 1 (é) ( 0 - - - - - - - - - - - - - " ++
        "-2147483648 2147483647 4294967295\n").toList = .ok stat ∧
      stat.name.toList = ") S 1 (é".toList ∧ stat.priority = -2147483648) ∧
    ∃ cause,
      StatLine.ofText ("4294967295 () S 1 (é) ( 0 - - - - - - - - - - - - - " ++
        "-2147483648 2147483647 4294967296\n").toList = .error (.failure cause) := by
  have fits : posing.Fits := ⟨by decide, by decide, by decide, by decide, by decide⟩
  have wide : ¬{ posing with threads := 4294967296 }.Fits :=
    fun fits => absurd fits.threads (by decide)
  have shown : posing.text posing.spacedFields =
      ("4294967295 () S 1 (é) ( 0 - - - - - - - - - - - - - " ++
        "-2147483648 2147483647 4294967295\n").toList := by cbv
  have refused : PrintedLine.text { posing with threads := 4294967296 }
      (spacedFields { posing with threads := 4294967296 }) =
        ("4294967295 () S 1 (é) ( 0 - - - - - - - - - - - - - " ++
          "-2147483648 2147483647 4294967296\n").toList := by cbv
  rw [<- shown, <- refused]
  rcases (line_reads_back posing posing.spacedFields (spaced_fields (by decide))).1 fits with
    ⟨stat, read, -, shows⟩
  exact ⟨⟨stat, read, shows.name, shows.priority⟩, _,
    ((line_reads_back { posing with threads := 4294967296 } _ (spaced_fields (by decide))).2
      wide).1⟩

end PrintedLine

end MemoryProbe
