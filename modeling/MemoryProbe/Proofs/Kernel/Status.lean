import Mathlib
import MemoryProbe.Kernel.Stat
import MemoryProbe.Proofs.Text.Numerals
import MemoryProbe.Proofs.Text.Places

namespace MemoryProbe

/-!
The kernel's status line as it is printed.  The number of a task stands in front of its name,
which is in parentheses and may hold anything; the fields behind it hold no parenthesis that
closes.  Such a line is read back whatever the name is, unless a number in it is out of its
range.  Any other text is read or refused, and none makes the reading fault: where the last
parenthesis that closes comes before the first one that opens, it stands where the number should
be.
-/

namespace Text

/-- A parenthesis that closes is no part of a number. -/
theorem natural32?_trim_eq_none {text : List Char} (member : ')' ∈ text) :
    natural32? (trim text) = none := by
  rw [Option.eq_none_iff_forall_ne_some]
  intro value read
  rcases Option.map_eq_some_iff.mp read with ⟨number, known, -⟩
  rcases (unsigned?_eq_some_iff.mp known).1.plus_or_digit (mem_trim member (by decide)) with
    plus | digit
  · exact absurd plus (by decide)
  · exact absurd digit (by decide)

end Text

/-! ## Any text -/

namespace StatLine

/-- What was looked for in a text, or the refusal of the text. -/
def orMalformed {α : Type} (text : List Char) (part? : Option α) :
    Except (Halt MemoryError) α :=
  part?.elim (.error (.failure (malformed text))) .ok

/-- The status line of a text that is cut in front of the name and behind it. -/
def ofParts? (front name rest : List Char) : Option StatLine :=
  (Text.natural32? (Text.trim front)).bind fun pid => ofFields? pid name (Text.words rest)

/-- How a text is read by the first of its parentheses that opens and the last that closes. -/
inductive Reads : List Char -> Option StatLine -> Prop where
  | unopened {text : List Char} (absent : '(' ∉ text) : Reads text none
  | unclosed {text : List Char} (absent : ')' ∉ text) : Reads text none
  /-- The last that closes comes before the first that opens. -/
  | crossed {front middle rest : List Char} (first : '(' ∉ front ++ ')' :: middle)
    (last : ')' ∉ middle ++ '(' :: rest) :
    Reads (front ++ ')' :: (middle ++ '(' :: rest)) none
  | named {front name rest : List Char} (first : '(' ∉ front) (last : ')' ∉ rest) :
    Reads (front ++ '(' :: (name ++ ')' :: rest)) (ofParts? front name rest)

/-- A text cut at its parentheses, put together at the second. -/
theorem append_cons_append {α : Type} (front middle rest : List α) (first second : α) :
    front ++ first :: (middle ++ second :: rest) =
      (front ++ first :: middle) ++ second :: rest := by
  simp

theorem exists_reads (text : List Char) : ∃ line?, Reads text line? := by
  by_cases opened : '(' ∈ text
  · by_cases closed : ')' ∈ text
    · rcases List.eq_append_cons_of_mem opened with ⟨front, back, rfl, first⟩
      by_cases behind : ')' ∈ back
      · rcases Text.exists_last_of_mem behind with ⟨name, rest, rfl, last⟩
        exact ⟨_, .named first last⟩
      · have before : ')' ∈ front :=
          (List.mem_append.mp closed).resolve_right fun member =>
            (List.mem_cons.mp member).elim (by decide) behind
        rcases Text.exists_last_of_mem before with ⟨early, middle, rfl, last⟩
        rw [<- append_cons_append]
        refine ⟨none, .crossed first fun member => ?_⟩
        rcases List.mem_append.mp member with inside | later
        · exact last inside
        · exact (List.mem_cons.mp later).elim (by decide) behind
    · exact ⟨none, .unclosed closed⟩
  · exact ⟨none, .unopened opened⟩

theorem opening?_eq (text : List Char) : opening? text = Text.firstPlace? '(' text := rfl

theorem closing?_eq (text : List Char) : closing? text = Text.lastPlace? ')' text := rfl

theorem ofText_named {front name rest : List Char} (first : '(' ∉ front) (last : ')' ∉ rest) :
    ofText (front ++ '(' :: (name ++ ')' :: rest)) =
      orMalformed (front ++ '(' :: (name ++ ')' :: rest)) (ofParts? front name rest) := by
  have joined := append_cons_append front name rest '(' ')'
  have opening : opening? (front ++ '(' :: (name ++ ')' :: rest)) = some front.length :=
    Text.firstPlace?_append_cons first _
  have closing : closing? (front ++ '(' :: (name ++ ')' :: rest)) =
      some (front ++ '(' :: name).length := by
    rw [joined]
    exact Text.lastPlace?_append_cons last _
  have inside : front.length + 1 ≤ (front ++ '(' :: name).length ∧
      (front ++ '(' :: name).length ≤ (front ++ '(' :: (name ++ ')' :: rest)).length := by
    simp only [List.length_append, List.length_cons]
    omega
  have middle : slice (front ++ '(' :: (name ++ ')' :: rest)) (front.length + 1)
      (front ++ '(' :: name).length = .ok name := by
    rw [slice, if_pos inside, joined, List.take_left, <- List.drop_drop, List.drop_left]
    rfl
  have behind : (front ++ '(' :: (name ++ ')' :: rest)).drop ((front ++ '(' :: name).length + 1) =
      rest := by
    rw [joined, <- List.drop_drop, List.drop_left]
    rfl
  unfold ofText
  rw [opening, closing]
  dsimp only
  rw [List.take_left, middle, behind, ofParts?]
  cases Text.natural32? (Text.trim front) with
  | none => rfl
  | some pid =>
      simp only [liftM, monadLift, MonadLift.monadLift, bind, Except.bind, Option.bind_some]
      cases ofFields? pid name (Text.words rest) <;> rfl

theorem ofText_of_reads {text : List Char} {line? : Option StatLine} (reads : Reads text line?) :
    ofText text = orMalformed text line? := by
  cases reads with
  | unopened absent =>
      unfold ofText
      rw [opening?_eq, Text.firstPlace?_eq_none absent]
      rfl
  | unclosed absent =>
      unfold ofText
      rw [closing?_eq, Text.lastPlace?_eq_none absent]
      cases opening? text <;> rfl
  | @crossed front middle rest first last =>
      have closing : closing? (front ++ ')' :: (middle ++ '(' :: rest)) = some front.length :=
        Text.lastPlace?_append_cons last front
      have number : Text.natural32? (Text.trim (front ++ ')' :: middle)) = none :=
        Text.natural32?_trim_eq_none (List.mem_append_right _ List.mem_cons_self)
      unfold ofText
      rw [closing, append_cons_append, opening?_eq, Text.firstPlace?_append_cons first]
      dsimp only
      rw [List.take_left, number]
      rfl
  | named first last => exact ofText_named first last

/-- A text is read or refused. -/
theorem orMalformed_cases {α : Type} (text : List Char) (part? : Option α) :
    (∃ part, orMalformed text part? = .ok part) ∨
      orMalformed text part? = .error (.failure (malformed text)) := by
  cases part? with
  | none => exact Or.inr rfl
  | some part => exact Or.inl ⟨part, rfl⟩

/-- No text makes reading a status line fault. -/
theorem ofText_ne_fault (text : List Char) (kind : Fault) :
    ofText text ≠ .error (.fault kind) := by
  rcases exists_reads text with ⟨line?, reads⟩
  rw [ofText_of_reads reads]
  rcases orMalformed_cases text line? with ⟨line, read⟩ | refused
  · exact read ▸ nofun
  · exact refused ▸ nofun

end StatLine

/-! ## Printed lines -/

/-- A status line as it is printed.  Its numbers may be of any size. -/
structure PrintedLine where
  pid : Nat
  name : List Char
  state : List Char
  parentPid : Nat
  /-- The fields between the parent and the priority. -/
  between : List (List Char)
  thirteen : between.length = 13
  priority : Int
  nice : Int
  threads : Nat
  /-- The fields behind the number of threads. -/
  behind : List (List Char)
  unclosed : forall field, field ∈ state :: (between ++ behind) -> ')' ∉ field

namespace PrintedLine

variable (line : PrintedLine)

/-- The fields behind the name. -/
def fields : List (List Char) :=
  line.state :: Text.numeral 10 0 line.parentPid ::
    (line.between ++ Text.signed line.priority :: Text.signed line.nice ::
      Text.numeral 10 0 line.threads :: line.behind)

/-- The fields with a space in front of each, up to the line feed. -/
def spacedFields : List Char :=
  line.fields.flatMap (fun field => ' ' :: field) ++ ['\n']

/-- What stands in front of the name. -/
def front : List Char :=
  Text.numeral 10 0 line.pid ++ [' ']

/-- The text of the line, of which the part behind the name is given. -/
def text (rest : List Char) : List Char :=
  line.front ++ '(' :: (line.name ++ ')' :: rest)

/-- The numbers are in range of their types. -/
structure Fits : Prop where
  pid : line.pid < UInt32.size
  parentPid : line.parentPid < UInt32.size
  priority : -2147483648 ≤ line.priority ∧ line.priority ≤ 2147483647
  nice : -2147483648 ≤ line.nice ∧ line.nice ≤ 2147483647
  threads : line.threads < UInt32.size

/-- What is kept of a line is what it was printed from. -/
structure Shows (stat : StatLine) : Prop where
  pid : stat.pid.toNat = line.pid
  name : stat.name.toList = line.name
  parentPid : stat.parentPid.toNat = line.parentPid
  priority : stat.priority = line.priority
  nice : stat.nice = line.nice
  threads : stat.threads.toNat = line.threads

/-- What is kept of a line whose numbers are in range. -/
def stat : StatLine where
  pid := UInt32.ofNat line.pid
  name := String.ofList line.name
  parentPid := UInt32.ofNat line.parentPid
  priority := line.priority
  nice := line.nice
  threads := UInt32.ofNat line.threads

variable {line} {rest : List Char}

theorem Fits.shows (fits : line.Fits) : line.Shows line.stat where
  pid := UInt32.toNat_ofNat_of_lt' fits.pid
  name := String.toList_ofList
  parentPid := UInt32.toNat_ofNat_of_lt' fits.parentPid
  priority := rfl
  nice := rfl
  threads := UInt32.toNat_ofNat_of_lt' fits.threads

theorem not_mem_front {mark : Char} (other : mark ≠ ' ') (sign : mark.isAlphanum = false) :
    mark ∉ line.front := by
  intro member
  rcases List.mem_append.mp member with digit | blank
  · rw [Text.isAlphanum_of_mem_numeral (by decide) (by decide) _ _ digit] at sign
    contradiction
  · exact other (List.mem_singleton.mp blank)

/-- What holds of printed numbers and of the fields that are given as they are holds of all
fields behind the name. -/
theorem forall_mem_fields {holds : List Char -> Prop}
    (number : forall value, holds (Text.numeral 10 0 value))
    (signed : forall value, holds (Text.signed value))
    (plain : forall field, field ∈ line.state :: (line.between ++ line.behind) -> holds field) :
    forall field, field ∈ line.fields -> holds field := by
  intro field member
  simp only [fields, List.mem_cons, List.mem_append] at member plain
  rcases member with rfl | rfl | early | rfl | rfl | rfl | late
  · exact plain _ (Or.inl rfl)
  · exact number _
  · exact plain _ (Or.inr (Or.inl early))
  · exact signed _
  · exact signed _
  · exact number _
  · exact plain _ (Or.inr (Or.inr late))

/-- The fields stand on a line if those that are given as they are do. -/
theorem spaced_fields (plain : forall field,
    field ∈ line.state :: (line.between ++ line.behind) -> field ≠ [] ∧ Text.Solid field) :
    Text.Spaced line.fields line.spacedFields :=
  Text.Spaced.of_line (forall_mem_fields
    (fun value => ⟨Text.numeral_ne_nil 0 value,
      Text.solid_numeral (by decide) (by decide) 0 value⟩)
    (fun value => ⟨Text.signed_ne_nil value, Text.solid_signed value⟩) plain)

/-- No field behind the name closes a parenthesis. -/
theorem not_mem_rest (spaced : Text.Spaced line.fields rest) : ')' ∉ rest := by
  intro member
  rcases spaced.exists_word member (by decide) with ⟨field, among, inside⟩
  have number : forall value, ')' ∉ Text.numeral 10 0 value := fun value digit =>
    absurd (Text.isAlphanum_of_mem_numeral (by decide) (by decide) _ _ digit) (by decide)
  have signed : forall value, ')' ∉ Text.signed value := fun value digit =>
    (Text.mem_signed digit).elim (by decide) (number _)
  exact forall_mem_fields number signed line.unclosed field among inside

/-- The fields are found by their numbers in the manual. -/
theorem ofFields?_fields (pid : UInt32) (name : List Char) :
    StatLine.ofFields? pid name line.fields = (do
      let parentPid <- Text.natural32? (Text.numeral 10 0 line.parentPid)
      let priority <- Text.integer32? (Text.signed line.priority)
      let nice <- Text.integer32? (Text.signed line.nice)
      let threads <- Text.natural32? (Text.numeral 10 0 line.threads)
      return ⟨pid, String.ofList name, parentPid, priority, nice, threads⟩) := by
  have place : forall count field, line.fields[15 + count]? = field ->
      StatLine.field? line.fields (18 + count) = field := by
    intro count field there
    rw [StatLine.field?, show 18 + count - 3 = 15 + count by omega, there]
  have behind : forall count, line.fields[15 + count]? =
      (Text.signed line.priority :: Text.signed line.nice ::
        Text.numeral 10 0 line.threads :: line.behind)[count]? := by
    intro count
    rw [fields, show 15 + count = line.between.length + count + 1 + 1 by
      rw [line.thirteen]; omega, List.getElem?_cons_succ, List.getElem?_cons_succ,
      List.getElem?_append_right (Nat.le_add_right _ _), Nat.add_sub_cancel_left]
  have parent : StatLine.field? line.fields 4 = some (Text.numeral 10 0 line.parentPid) := rfl
  unfold StatLine.ofFields?
  rw [parent, place 0 _ (behind 0), place 1 _ (behind 1), place 2 _ (behind 2)]
  rfl

/-- A line is cut in front of its name and behind it, whatever the name is. -/
theorem ofText_text (spaced : Text.Spaced line.fields rest) :
    StatLine.ofText (line.text rest) =
      StatLine.orMalformed (line.text rest) (StatLine.ofParts? line.front line.name rest) :=
  StatLine.ofText_named (not_mem_front (by decide) (by decide)) (not_mem_rest spaced)

/-- The parts of a line are a status line exactly if all its numbers are in range. -/
theorem ofParts?_line (spaced : Text.Spaced line.fields rest) :
    (line.Fits -> StatLine.ofParts? line.front line.name rest = some line.stat) ∧
    (¬line.Fits -> StatLine.ofParts? line.front line.name rest = none) := by
  have front : Text.trim line.front = Text.numeral 10 0 line.pid := by
    rw [PrintedLine.front, Text.trim_append_blank (by decide),
      Text.trim_of_solid (Text.solid_numeral (by decide) (by decide) _ _)]
  have read : StatLine.ofParts? line.front line.name rest = (do
      let pid <- Text.natural32? (Text.numeral 10 0 line.pid)
      let parentPid <- Text.natural32? (Text.numeral 10 0 line.parentPid)
      let priority <- Text.integer32? (Text.signed line.priority)
      let nice <- Text.integer32? (Text.signed line.nice)
      let threads <- Text.natural32? (Text.numeral 10 0 line.threads)
      return ⟨pid, String.ofList line.name, parentPid, priority, nice, threads⟩) := by
    rw [StatLine.ofParts?, front, spaced.words_eq]
    exact congrArg (Option.bind _) (funext fun pid => ofFields?_fields pid line.name)
  rw [read]
  simp only [Text.natural32?_numeral_eq, Text.integer32?_signed_eq]
  refine ⟨fun fits => ?_, fun wide => ?_⟩
  · rw [if_pos fits.pid, if_pos fits.parentPid, if_pos fits.priority, if_pos fits.nice,
      if_pos fits.threads]
    rfl
  · by_contra some
    refine wide ⟨?_, ?_, ?_, ?_, ?_⟩
    all_goals
      by_contra outside
      refine some ?_
      rw [if_neg outside]
      simp

end PrintedLine

/-- A task with all that its status line tells of it besides the name. -/
structure PrintedTask where
  pid : UInt32
  state : List Char
  parentPid : UInt32
  /-- The fields between the parent and the priority. -/
  between : List (List Char)
  thirteen : between.length = 13
  priority : Int
  priority_fits : -2147483648 ≤ priority ∧ priority ≤ 2147483647
  nice : Int
  nice_fits : -2147483648 ≤ nice ∧ nice ≤ 2147483647
  threads : UInt32
  /-- The fields behind the number of threads. -/
  behind : List (List Char)
  unclosed : forall field, field ∈ state :: (between ++ behind) -> ')' ∉ field

namespace PrintedTask

variable (task : PrintedTask)

/-- The fields behind the name. -/
def fields : List (List Char) :=
  task.state :: Text.numeral 10 0 task.parentPid.toNat ::
    (task.between ++ Text.signed task.priority :: Text.signed task.nice ::
      Text.numeral 10 0 task.threads.toNat :: task.behind)

/-- What stands in front of the name. -/
def front : List Char :=
  Text.numeral 10 0 task.pid.toNat ++ [' ']

/-- The status line of a task with a name, of which the part behind the name is given. -/
def line (name rest : List Char) : List Char :=
  task.front ++ '(' :: (name ++ ')' :: rest)

/-- What of a task is kept. -/
def stat (name : List Char) : StatLine where
  pid := task.pid
  name := String.ofList name
  parentPid := task.parentPid
  priority := task.priority
  nice := task.nice
  threads := task.threads

/-- The line of the task, as one with numbers of any size. -/
def printed (name : List Char) : PrintedLine :=
  { task with
    pid := task.pid.toNat
    name := name
    parentPid := task.parentPid.toNat
    threads := task.threads.toNat }

variable {task} {name rest : List Char}

/-- The numbers of a task are in range. -/
theorem fits_printed : (task.printed name).Fits :=
  ⟨task.pid.toNat_lt, task.parentPid.toNat_lt, task.priority_fits, task.nice_fits,
    task.threads.toNat_lt⟩

theorem stat_printed : (task.printed name).stat = task.stat name := by
  simp [PrintedLine.stat, printed, stat]

/-- The fields stand on a line if those that are given as they are do. -/
theorem spaced_fields (plain : forall field,
    field ∈ task.state :: (task.between ++ task.behind) -> field ≠ [] ∧ Text.Solid field) :
    Text.Spaced task.fields (task.fields.flatMap (fun field => ' ' :: field) ++ ['\n']) :=
  @PrintedLine.spaced_fields (task.printed []) plain

/-- A status line is read back, whatever the name is. -/
theorem ofText_line (spaced : Text.Spaced task.fields rest) :
    StatLine.ofText (task.line name rest) = .ok (task.stat name) := by
  have parts := (@PrintedLine.ofParts?_line (task.printed name) rest spaced).1 fits_printed
  have read := @PrintedLine.ofText_text (task.printed name) rest spaced
  rw [parts, stat_printed] at read
  exact read

end PrintedTask

end MemoryProbe
