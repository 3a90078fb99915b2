import Mathlib
import MemoryProbe.Kernel.Maps
import MemoryProbe.Proofs.Mapping
import MemoryProbe.Proofs.Text.Cuts
import MemoryProbe.Proofs.Text.Numerals

namespace MemoryProbe

/-!
The kernel's listing of mappings as it is printed.  A mapping is printed on a line: its
range, its permissions, its offset, its device and its inode, and then its path, if it has
one.  Numbers may have zeros in front, the path may stand apart from the inode, blank lines
may stand between the others, and a line ends with a line feed, with or without a carriage
return.  Whatever is printed so is read back as the mappings in their order.  A listing with
a line that is neither blank nor a mapping gives the first such line as the cause of failure.
-/

namespace Protection

/-- The rights that the letters of a permission column stand for, each at its place. -/
def ofLetters (column : List Char) : Protection where
  read := column[0]? = some 'r'
  write := column[1]? = some 'w'
  execute := column[2]? = some 'x'
  shared := column[3]? = some 's'
  copyOnWrite := column[3]? = some 'p' && column[1]? = some 'w'

variable {column : List Char}
  (ascii : forall character, character ∈ column -> character.toNat < 128)

include ascii

theorem utf8Bytes_of_ascii : Text.utf8Bytes column = column.map Char.toUInt8 := by
  induction column with
  | nil => rfl
  | cons character column ih =>
      rw [List.forall_mem_cons] at ascii
      have small : character.utf8Size = 1 := by
        rw [Char.utf8Size_eq_one_iff, UInt32.le_iff_toNat_le]
        exact Nat.le_of_lt_succ ascii.1
      rw [Text.utf8Bytes, List.flatMap_cons, String.utf8EncodeChar_eq_singleton small]
      exact congrArg (character.toUInt8 :: ·) (ih ascii.2)

theorem hasAt_of_ascii (place : Nat) {letter : Char} (small : letter.toNat < 128) :
    hasAt (Text.utf8Bytes column) place letter = decide (column[place]? = some letter) := by
  rw [hasAt, utf8Bytes_of_ascii ascii, List.getElem?_map]
  cases there : column[place]? with
  | none => rfl
  | some character =>
      have bounded := ascii character (List.mem_of_getElem? there)
      have same : character.toUInt8 = letter.toUInt8 <-> character = letter := by
        rw [<- UInt8.toNat_inj, <- Char.toNat_inj]
        change character.toNat % 256 = letter.toNat % 256 <-> _
        omega
      rw [Bool.eq_iff_iff]
      simp [same]

/-- In a column of ASCII characters, bytes and letters stand at the same places. -/
theorem ofColumn_eq_ofLetters : ofColumn column = ofLetters column := by
  simp [ofColumn, ofLetters, hasAt_of_ascii ascii]

end Protection

namespace Mapping

/-- The lines of a listing that are not blank are read in their order. -/
theorem ofListing_eq (text : List Char) :
    ofListing text =
      ((Text.lines text).filter fun line => decide ¬Text.Blank line).mapM ofLine := by
  have same : (fun line => !(Text.trim line).isEmpty) = fun line => decide ¬Text.Blank line := by
    funext line
    rw [Bool.eq_iff_iff]
    simp [Text.trim_eq_nil_iff]
  rw [ofListing, same]

theorem cause_of_ofLine {line : List Char} {cause : MemoryError}
    (fails : ofLine line = .error cause) : cause = malformed line := by
  unfold ofLine at fails
  split at fails
  · exact nomatch fails
  · exact (Except.error.inj fails).symm

end Mapping

/-- A text that a listing can name as a path: it stays on its line, and no blank at either
end of it can be taken for one of the listing. -/
structure PathName (name : List Char) : Prop where
  filled : name ≠ []
  unbroken : '\n' ∉ name
  first : forall character, character ∈ name.head? -> Text.isBlank character = false
  last : forall character, character ∈ name.getLast? -> Text.isBlank character = false

/-- A mapping with all that the kernel prints of it. -/
structure ListedMapping where
  start : Word
  stop : Word
  ordered : start ≤ stop
  permissions : List Char
  four : permissions.length = 4
  permitted : Text.Solid permissions
  offset : Word
  device : List Char
  placed : Text.Solid device
  inode : Word
  path : Option String
  named : forall name, name ∈ path -> PathName name.toList

namespace ListedMapping

variable (listed : ListedMapping)

/-- What of a listed mapping is kept. -/
def mapping : Mapping where
  start := listed.start
  stop := listed.stop
  protection := Protection.ofColumn listed.permissions
  offset := listed.offset
  inode := listed.inode
  path := listed.path

/-- How wide the numbers of a line are printed, and how far the path stands from the
inode. -/
structure Spacing where
  start : Nat
  stop : Nat
  offset : Nat
  inode : Nat
  blanks : Nat

variable (spacing : Spacing)

def range : List Char :=
  Text.numeral 16 spacing.start listed.start.toNat ++
    '-' :: Text.numeral 16 spacing.stop listed.stop.toNat

/-- The columns in front of the inode. -/
def columns : List (List Char) :=
  [listed.range spacing, listed.permissions,
    Text.numeral 16 spacing.offset listed.offset.toNat, listed.device]

/-- What follows the inode: blanks, and the path if there is one. -/
def tail : List Char :=
  List.replicate spacing.blanks ' ' ++ listed.path.elim [] String.toList

def line : List Char :=
  (listed.columns spacing).flatMap (fun column => column ++ [' ']) ++
    (Text.numeral 10 spacing.inode listed.inode.toNat ++ listed.tail spacing)

/-- The line of a mapping, or a blank line of no mapping.  A path is apart from the
inode. -/
inductive Row : List ListedMapping -> List Char -> Prop
  | blank {line} (unbroken : '\n' ∉ line) (blank : Text.Blank line) : Row [] line
  | entry (listed : ListedMapping) (spacing : Spacing)
      (apart : listed.path ≠ none -> 0 < spacing.blanks) : Row [listed] (listed.line spacing)

inductive LineEnd : List Char -> Prop
  | lineFeed : LineEnd ['\n']
  | returned : LineEnd ['\r', '\n']

/-- The texts that list mappings in their order.  The last line need not be ended. -/
inductive Printed : List ListedMapping -> List Char -> Prop
  | last {entries line} (row : Row entries line) : Printed entries line
  | next {entries line ending others rest} (row : Row entries line) (ends : LineEnd ending)
      (printed : Printed others rest) : Printed (entries ++ others) (line ++ (ending ++ rest))

section Line

variable {listed spacing}

theorem range?_range :
    Mapping.range? (listed.range spacing) = some (listed.start, listed.stop) := by
  have read := fun width word => Text.word?_numeral (by decide : 1 < 16) (by decide) width word
  have lower : forall character, character ∈ Text.numeral 16 spacing.start listed.start.toNat ->
      decide (character = '-') = false := fun character member =>
    decide_eq_false (Text.distinct_of_mem_numeral (by decide) (by decide) _ _ member).2.1
  rw [Mapping.range?, range, Text.splitOnce?_append lower (by decide)]
  simp [read, listed.ordered]

theorem solid_columns : forall column, column ∈ listed.columns spacing -> Text.Solid column := by
  have hexadecimal : forall width value, Text.Solid (Text.numeral 16 width value) :=
    Text.solid_numeral (by decide) (by decide)
  intro column member
  simp only [columns, List.mem_cons, List.not_mem_nil, or_false] at member
  rcases member with rfl | rfl | rfl | rfl
  · intro character inside
    rcases List.mem_append.mp inside with lower | upper
    · exact hexadecimal _ _ character lower
    · rcases List.mem_cons.mp upper with rfl | upper
      · decide
      · exact hexadecimal _ _ character upper
  · exact listed.permitted
  · exact hexadecimal _ _
  · exact listed.placed

theorem solid_inode : Text.Solid (Text.numeral 10 spacing.inode listed.inode.toNat) :=
  Text.solid_numeral (by decide) (by decide) _ _

/-- Trimming what stands behind the inode leaves the path. -/
theorem path?_blanks (count : Nat) :
    Mapping.path? [List.replicate count ' ' ++ listed.path.elim [] String.toList] =
      listed.path := by
  have blank : Text.Blank (List.replicate count ' ') := by
    intro character member
    rw [List.eq_of_mem_replicate member]
    decide
  cases path : listed.path with
  | none =>
      have empty : Text.trim (List.replicate count ' ' ++ []) = [] :=
        Text.trim_append blank nofun nofun
      simp only [Mapping.path?, Option.elim_none, empty]
      rfl
  | some name =>
      have proper := listed.named name path
      have trimmed := Text.trim_append blank proper.first proper.last
      simp [Mapping.path?, trimmed, proper.filled]

/-- Whatever follows the inode behind a blank is trimmed and read as the path. -/
theorem ofLine_columns {tail : List Char}
    (apart : forall character, character ∈ tail.head? -> Text.isBlank character = true) :
    Mapping.ofLine ((listed.columns spacing).flatMap (fun column => column ++ [' ']) ++
        (Text.numeral 10 spacing.inode listed.inode.toNat ++ tail)) =
      .ok { listed.mapping with path := Mapping.path? [tail] } := by
  have cut : ∃ rest, Text.piecesUpTo Text.isBlank 2
      (Text.numeral 10 spacing.inode listed.inode.toNat ++ tail) =
        Text.numeral 10 spacing.inode listed.inode.toNat :: rest ∧
      Mapping.path? rest = Mapping.path? [tail] := by
    cases tail with
    | nil => exact ⟨[], by rw [List.append_nil, Text.piecesUpTo_eq_singleton solid_inode], rfl⟩
    | cons character tail =>
        have blank := apart character rfl
        have trimmed : Text.trim (character :: tail) = Text.trim tail :=
          @Text.trim_blank_append tail [character] fun _ member =>
            List.mem_singleton.mp member ▸ blank
        refine ⟨[tail], ?_, by simp only [Mapping.path?, trimmed]⟩
        rw [Text.piecesUpTo_append solid_inode blank, Text.piecesUpTo]
  rcases cut with ⟨rest, cut, path⟩
  have cuts : Text.piecesUpTo Text.isBlank 6
      ((listed.columns spacing).flatMap (fun column => column ++ [' ']) ++
        (Text.numeral 10 spacing.inode listed.inode.toNat ++ tail)) =
      listed.columns spacing ++ Text.numeral 10 spacing.inode listed.inode.toNat :: rest := by
    rw [<- cut]
    exact Text.piecesUpTo_flatMap solid_columns (by decide) 1 _
  have offset := Text.word?_numeral (by decide : 1 < 16) (by decide) spacing.offset listed.offset
  have inode := Text.word?_numeral (by decide : 1 < 10) (by decide) spacing.inode listed.inode
  rw [Mapping.ofLine, cuts]
  simp [columns, Mapping.ofColumns?, range?_range, offset, inode, path, mapping]

theorem ofLine_line (apart : listed.path ≠ none -> 0 < spacing.blanks) :
    Mapping.ofLine (listed.line spacing) = .ok listed.mapping := by
  have blank : forall character, character ∈ (listed.tail spacing).head? ->
      Text.isBlank character = true := by
    intro character first
    cases distance : spacing.blanks with
    | zero =>
        have pathless : listed.path = none := by
          by_contra path
          exact absurd (apart path) (by omega)
        simp [tail, distance, pathless] at first
    | succ count =>
        simp only [tail, distance, List.replicate_succ, List.cons_append, List.head?_cons,
          Option.mem_def, Option.some.injEq] at first
        exact first ▸ by decide
  rw [line, ofLine_columns blank, tail, path?_blanks]
  rfl

theorem line_unbroken : '\n' ∉ listed.line spacing := by
  intro member
  rcases List.mem_append.mp member with before | behind
  · rcases List.mem_flatMap.mp before with ⟨column, among, inside⟩
    rcases List.mem_append.mp inside with inside | space
    · exact absurd (solid_columns column among _ inside) (by decide)
    · exact absurd (List.mem_singleton.mp space) (by decide)
  · rcases List.mem_append.mp behind with inode | tail
    · exact absurd (solid_inode _ inode) (by decide)
    · rcases List.mem_append.mp tail with space | path
      · exact absurd (List.eq_of_mem_replicate space) (by decide)
      · cases named : listed.path with
        | none => simp [named] at path
        | some name => exact (listed.named name named).unbroken (by simpa [named] using path)

/-- The dash of the range is not blank. -/
theorem dash_mem_line : '-' ∈ listed.line spacing := by
  simp [line, columns, range]

/-- The last character of a line is a digit, a space or the last one of the path. -/
theorem getLast?_line : (listed.line spacing).getLast? ≠ some '\r' := by
  cases named : listed.path with
  | some name =>
      have proper := listed.named name named
      have ends : (listed.line spacing).getLast? = name.toList.getLast? := by
        rw [line, tail, named, Option.elim_some, <- List.append_assoc, <- List.append_assoc]
        exact List.getLast?_append_of_ne_nil _ proper.filled
      intro last
      exact absurd (proper.last '\r' (ends ▸ last)) (by decide)
  | none =>
      cases distance : spacing.blanks with
      | zero =>
          have ends : (listed.line spacing).getLast? =
              (Text.numeral 10 spacing.inode listed.inode.toNat).getLast? := by
            rw [line, tail, named, distance]
            simpa using List.getLast?_append_of_ne_nil _ (Text.numeral_ne_nil _ _)
          intro last
          exact absurd (solid_inode '\r' (List.mem_of_getLast? (ends ▸ last))) (by decide)
      | succ count =>
          have ends : (listed.line spacing).getLast? = some ' ' := by
            rw [line, tail, named, distance]
            simp [List.getLast?_append, List.getLast?_replicate]
          rw [ends]
          decide

end Line

section Reading

variable {entries : List ListedMapping} {line ending text : List Char}

theorem Row.unbroken (row : Row entries line) : '\n' ∉ line := by
  cases row with
  | blank unbroken => exact unbroken
  | entry listed spacing => exact line_unbroken

/-- A row gives its mapping, or nothing. -/
theorem Row.reads (row : Row entries line) :
    ([line].filter fun line => decide ¬Text.Blank line).map Mapping.ofLine =
      (entries.map mapping).map Except.ok := by
  cases row with
  | blank unbroken blank => simp [blank]
  | entry listed spacing apart =>
      have filled : ¬Text.Blank (listed.line spacing) := fun blank =>
        absurd (blank '-' dash_mem_line) (by decide)
      simp [filled, ofLine_line apart]

/-- A carriage return that is taken for a part of the line end was a blank of a blank
line. -/
theorem Row.dropTrailing (row : Row entries line) : Row entries (Text.dropTrailing '\r' line) := by
  cases row with
  | blank unbroken blank =>
      have part : (Text.dropTrailing '\r' line).Sublist line := by
        unfold Text.dropTrailing
        split
        · exact List.dropLast_sublist line
        · exact List.Sublist.refl line
      exact .blank (fun member => unbroken (part.mem member))
        fun character member => blank character (part.mem member)
  | entry listed spacing apart =>
      have kept : Text.dropTrailing '\r' (listed.line spacing) = listed.line spacing :=
        if_neg getLast?_line
      rw [kept]
      exact .entry listed spacing apart

/-- However a row is ended, it is cut off as a row of the same mappings. -/
theorem Row.exists_lines (row : Row entries line) (ends : LineEnd ending) (rest : List Char) :
    ∃ kept, Row entries kept ∧ Text.lines (line ++ (ending ++ rest)) = kept :: Text.lines rest := by
  cases ends with
  | lineFeed => exact ⟨_, row.dropTrailing, Text.lines_append row.unbroken rest⟩
  | returned =>
      have unbroken : '\n' ∉ line ++ ['\r'] := by
        simpa using row.unbroken
      have kept : Text.dropTrailing '\r' (line ++ ['\r']) = line := by
        simp [Text.dropTrailing]
      refine ⟨line, row, ?_⟩
      have cut := Text.lines_append unbroken rest
      rw [kept] at cut
      simpa using cut

theorem Printed.reads (printed : Printed entries text) :
    ((Text.lines text).filter fun line => decide ¬Text.Blank line).map Mapping.ofLine =
      (entries.map mapping).map Except.ok := by
  induction printed with
  | @last entries line row =>
      by_cases empty : line = []
      · have nothing := row.reads
        rw [empty] at nothing ⊢
        exact nothing
      · rw [Text.lines_eq_singleton row.unbroken empty]
        exact row.reads
  | @next entries line ending others rest row ends printed ih =>
      rcases row.exists_lines ends rest with ⟨kept, same, lines⟩
      rw [lines, <- List.singleton_append, List.filter_append, List.map_append, same.reads, ih,
        List.map_append, List.map_append]

end Reading

/-- What is printed is read back, and a text with a wrong line gives the first such line as
the cause of failure. -/
theorem listing_reads_back (text : List Char) :
    (forall entries, Printed entries text ->
      Mapping.ofListing text = .ok (entries.map mapping) ∧
      forall listed, listed ∈ entries ->
        (forall character, character ∈ listed.permissions -> character.toNat < 128) ->
        listed.mapping.protection = Protection.ofLetters listed.permissions) ∧
    (forall line, line ∈ Text.lines text -> ¬Text.Blank line ->
      (forall mapping, Mapping.ofLine line ≠ .ok mapping) ->
      ∃ before bad after, Text.lines text = before ++ bad :: after ∧
        (forall earlier, earlier ∈ before -> ¬Text.Blank earlier ->
          ∃ mapping, Mapping.ofLine earlier = .ok mapping) ∧
        ¬Text.Blank bad ∧
        Mapping.ofLine bad = .error (.malformed "maps line" (String.ofList bad)) ∧
        Mapping.ofListing text = .error (.malformed "maps line" (String.ofList bad))) := by
  constructor
  · intro entries printed
    refine ⟨?_, fun listed _ ascii => Protection.ofColumn_eq_ofLetters ascii⟩
    rw [Mapping.ofListing_eq, mapM_eq_ok_iff]
    exact printed.reads
  · intro line among filled failed
    rcases mapM_filter_error (fun line => decide ¬Text.Blank line) among
      (decide_eq_true filled) failed with
      ⟨before, bad, after, cause, split, kept, fails, earlier, whole⟩
    have named : cause = Mapping.malformed bad := Mapping.cause_of_ofLine fails
    refine ⟨before, bad, after, split, ?_, of_decide_eq_true kept, ?_, ?_⟩
    · intro line member filled
      exact earlier line member (decide_eq_true filled)
    · rw [fails, named]
      rfl
    · rw [Mapping.ofListing_eq, whole, named]
      rfl

/-- A file that is gone, under a name with spaces. -/
def deletedFile : ListedMapping where
  start := 0x400000
  stop := 0x401000
  ordered := by decide
  permissions := "r-xp".toList
  four := by decide
  permitted := by decide
  offset := 0x2000
  device := "08:01".toList
  placed := by decide
  inode := 1312
  path := some "/srv/a b (deleted)"
  named := by
    intro name same
    cases same
    exact ⟨by decide, by decide, by rintro _ ⟨⟩; decide, by rintro _ ⟨⟩; decide⟩

/-- The last page of the address space, without a path. -/
def lastPage : ListedMapping where
  start := 0xfffffffffffff000
  stop := 0xffffffffffffffff
  ordered := by decide
  permissions := "rw-p".toList
  four := by decide
  permitted := by decide
  offset := 0
  device := []
  placed := by decide
  inode := 0
  path := none
  named := nofun

/-- Both are printed, the first one with zeros in front and a blank line behind it, the
second one with a space at the end of the last line.  Of two wrong lines the first one is the
cause of failure. -/
theorem listing_reads_back_of_two :
    Mapping.ofListing ("00400000-00401000 r-xp 2000 08:01 1312    /srv/a b (deleted)\r\n \n" ++
        "fffffffffffff000-ffffffffffffffff rw-p 00000000  0 ").toList =
      .ok [⟨0x400000, 0x401000, { read := true, execute := true }, 0x2000, 1312,
          some "/srv/a b (deleted)"⟩,
        ⟨0xfffffffffffff000, 0xffffffffffffffff,
          { read := true, write := true, copyOnWrite := true }, 0, 0, none⟩] ∧
    Mapping.ofListing "zzzz\n2-1 r--p 0 0: 0".toList =
      .error (.malformed "maps line" (String.ofList "zzzz".toList)) := by
  have printed : Printed [deletedFile, lastPage]
      (deletedFile.line ⟨8, 8, 0, 0, 4⟩ ++ (['\r', '\n'] ++
        ([' '] ++ (['\n'] ++ lastPage.line ⟨0, 0, 8, 0, 1⟩)))) :=
    .next (.entry deletedFile _ (by decide)) .returned
      (.next (.blank (by decide) (by decide)) .lineFeed (.last (.entry lastPage _ (by decide))))
  have text : deletedFile.line ⟨8, 8, 0, 0, 4⟩ ++ (['\r', '\n'] ++
      ([' '] ++ (['\n'] ++ lastPage.line ⟨0, 0, 8, 0, 1⟩))) =
        ("00400000-00401000 r-xp 2000 08:01 1312    /srv/a b (deleted)\r\n \n" ++
        "fffffffffffff000-ffffffffffffffff rw-p 00000000  0 ").toList := by cbv
  have read := ((listing_reads_back _).1 _ printed).1
  have wrong : forall mapping, Mapping.ofLine "zzzz".toList ≠ .ok mapping := by
    have failed : Mapping.ofLine "zzzz".toList = .error (Mapping.malformed "zzzz".toList) := by cbv
    intro mapping
    rw [failed]
    simp
  have lines : Text.lines "zzzz\n2-1 r--p 0 0: 0".toList =
      ["zzzz".toList, "2-1 r--p 0 0: 0".toList] := by cbv
  refine ⟨by rw [<- text, read]; rfl, ?_⟩
  rcases (listing_reads_back "zzzz\n2-1 r--p 0 0: 0".toList).2 "zzzz".toList
    (by rw [lines]; exact List.mem_cons_self) (by decide) wrong with
    ⟨before, bad, after, split, earlier, -, -, failed⟩
  rw [lines] at split
  cases before with
  | nil =>
      rw [(List.cons.inj split).1]
      exact failed
  | cons first before =>
      have leading : "zzzz".toList = first := (List.cons.inj split).1
      rcases earlier first List.mem_cons_self (leading ▸ by decide) with ⟨mapping, fine⟩
      exact absurd fine (leading ▸ wrong mapping)

end ListedMapping

end MemoryProbe
