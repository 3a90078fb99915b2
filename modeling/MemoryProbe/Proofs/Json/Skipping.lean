import MemoryProbe.Proofs.Json.Grammar

namespace MemoryProbe
namespace Json

/-!
Every value of the grammar is skipped, whatever its kind, depth and size.  Skipping stops right
behind the value, so blanks behind it are left to be skipped with what comes next.  Only a number
has no mark of its own at its end: what comes next must not go on with it.
-/

/-! ## Blanks and digits -/

theorem isSeparator_iff {character : Char} :
    isSeparator character = true <->
      character = ' ' ∨ character = '\t' ∨ character = '\n' ∨ character = '\r' := by
  simp only [isSeparator, Bool.or_eq_true, beq_iff_eq, or_assoc]

section Blanks

variable {gap : List Char} (blank : Gap gap)

include blank

theorem skipBlanks_append (rest : List Char) : skipBlanks (gap ++ rest) = skipBlanks rest :=
  List.dropWhile_append_of_pos fun character member => isSeparator_iff.mpr (blank character member)

theorem skipBlanks_gap : skipBlanks gap = [] := by
  have none := skipBlanks_append blank []
  rwa [List.append_nil] at none

end Blanks

theorem skipBlanks_cons {character : Char} (mark : isSeparator character = false)
    (rest : List Char) : skipBlanks (character :: rest) = character :: rest :=
  List.dropWhile_cons_of_neg (by simp [mark])

/-- The rest of a text does not go on with a number in front of it. -/
def Ends (rest : List Char) : Prop :=
  forall character, character ∈ rest.head? ->
    character.isDigit = false ∧ character ≠ '.' ∧ character ≠ 'e' ∧ character ≠ 'E'

theorem ends_cons {mark : Char} (rest : List Char)
    (ends : mark.isDigit = false ∧ mark ≠ '.' ∧ mark ≠ 'e' ∧ mark ≠ 'E') : Ends (mark :: rest) := by
  intro character head
  cases head
  exact ends

theorem Ends.gap_append {gap rest : List Char} (blank : Gap gap) (ends : Ends rest) :
    Ends (gap ++ rest) := by
  cases gap with
  | nil => exact ends
  | cons character gap =>
      apply ends_cons
      rcases blank character List.mem_cons_self with rfl | rfl | rfl | rfl <;> decide

theorem Ends.startsWithDigit_eq {rest : List Char} (ends : Ends rest) :
    startsWithDigit rest = false := by
  cases rest with
  | nil => rfl
  | cons character rest => exact (ends character rfl).1

theorem IsDigits.startsWithDigit_append {digits : List Char} (shown : IsDigits digits)
    (rest : List Char) : startsWithDigit (digits ++ rest) = true := by
  cases digits with
  | nil => exact absurd rfl shown.filled
  | cons first digits => exact shown.digits first List.mem_cons_self

theorem skipBlanks_of_digit {text : List Char} (starts : startsWithDigit text = true) :
    skipBlanks text = text := by
  cases text with
  | nil => rfl
  | cons character rest =>
      apply skipBlanks_cons
      rw [Bool.eq_false_iff, Ne, isSeparator_iff]
      rintro (rfl | rfl | rfl | rfl) <;> cases starts

theorem takeWhile_isDigit_append {digits rest : List Char} (shown : IsDigits digits)
    (stops : startsWithDigit rest = false) : (digits ++ rest).takeWhile Char.isDigit = digits := by
  rw [List.takeWhile_append_of_pos shown.digits]
  cases rest with
  | nil => simp
  | cons character rest =>
      rw [List.takeWhile_cons_of_neg, List.append_nil]
      exact Bool.eq_false_iff.mp stops

theorem skipDigits_append {digits rest : List Char} (shown : IsDigits digits)
    (stops : startsWithDigit rest = false) : skipDigits (digits ++ rest) = rest := by
  rw [skipDigits, List.dropWhile_append_of_pos shown.digits]
  cases rest with
  | nil => rfl
  | cons character rest => exact List.dropWhile_cons_of_neg (Bool.eq_false_iff.mp stops)

/-! ## Numbers -/

theorem skipExponent_of_digit {text : List Char} (starts : startsWithDigit text = true) :
    skipExponent text = .ok (skipDigits text) := by
  unfold skipExponent
  split
  · simp [startsWithDigit] at starts
  · simp [startsWithDigit] at starts
  · exact if_pos starts

theorem skipFraction_of_ne {text : List Char} (plain : text.head? ≠ some '.') :
    skipFraction text = skipOptionalExponent text := by
  unfold skipFraction
  split
  · exact absurd rfl plain
  · rfl

section Numbers

variable {rest : List Char} (ends : Ends rest)

include ends

theorem skipOptionalExponent_append {exponent : List Char} (power : IsExponent exponent) :
    skipOptionalExponent (exponent ++ rest) = .ok rest := by
  rcases power with rfl | ⟨mark, sign, digits, letter, signed, shown, rfl⟩
  · unfold skipOptionalExponent
    rw [List.nil_append]
    split
    · exact absurd rfl (ends 'e' rfl).2.2.1
    · exact absurd rfl (ends 'E' rfl).2.2.2
    · rfl
  · have starts := shown.startsWithDigit_append rest
    have skipped := skipDigits_append shown ends.startsWithDigit_eq
    have signless : skipExponent (sign ++ (digits ++ rest)) = .ok rest := by
      rcases signed with rfl | rfl | rfl
      · rw [List.nil_append, skipExponent_of_digit starts, skipped]
      · exact (if_pos starts).trans (congrArg _ skipped)
      · exact (if_pos starts).trans (congrArg _ skipped)
    rw [List.cons_append, List.append_assoc]
    rcases letter with rfl | rfl <;> exact signless

/-- Behind the whole part of a number there is no further digit. -/
theorem startsWithDigit_places {fraction exponent : List Char} (places : IsFraction fraction)
    (power : IsExponent exponent) :
    startsWithDigit (fraction ++ (exponent ++ rest)) = false := by
  rcases places with rfl | ⟨_, -, rfl⟩
  · rcases power with rfl | ⟨_, _, _, rfl | rfl, -, -, rfl⟩
    · exact ends.startsWithDigit_eq
    · rfl
    · rfl
  · rfl

theorem skipFraction_append {fraction exponent : List Char} (places : IsFraction fraction)
    (power : IsExponent exponent) :
    skipFraction (fraction ++ (exponent ++ rest)) = .ok rest := by
  have powered := skipOptionalExponent_append ends power
  rcases places with rfl | ⟨digits, shown, rfl⟩
  · rw [List.nil_append, skipFraction_of_ne, powered]
    rcases power with rfl | ⟨_, _, _, rfl | rfl, -, -, rfl⟩
    · exact fun point => (ends '.' point).2.1 rfl
    · simp
    · simp
  · have stops := startsWithDigit_places ends (.inl rfl) power
    rw [List.nil_append] at stops
    have skipped := skipDigits_append shown stops
    rw [List.cons_append]
    refine (if_pos (shown.startsWithDigit_append _)).trans ?_
    rw [skipped, powered]

theorem skipNumber_append {whole fraction exponent : List Char} (first : IsWhole whole)
    (places : IsFraction fraction) (power : IsExponent exponent) :
    skipNumber (whole ++ (fraction ++ (exponent ++ rest))) = .ok rest := by
  have behind := skipFraction_append ends places power
  have stops := startsWithDigit_places ends places power
  have starts := first.startsWithDigit_append (fraction ++ (exponent ++ rest))
  have skipped := skipDigits_append first.toIsDigits stops
  unfold skipNumber
  split
  · rename_i tail zero
    have whole_eq : whole = ['0'] := by
      apply first.plain
      cases whole with
      | nil => exact absurd rfl first.filled
      | cons character whole =>
          rw [(List.cons.inj zero).1]
          rfl
    have tail_eq : tail = fraction ++ (exponent ++ rest) := by
      rw [whole_eq] at zero
      exact (List.cons.inj zero).2.symm
    rw [tail_eq, stops]
    exact behind
  · rw [starts, skipped]
    exact behind

end Numbers

/-! ## Texts -/

theorem escaped?_of_mem {letter character : Char} (escape : (letter, character) ∈ escapes) :
    escaped? letter = some character := by
  simp only [escapes, List.mem_cons, Prod.mk.injEq, List.not_mem_nil, or_false] at escape
  rcases escape with ⟨rfl, rfl⟩ | ⟨rfl, rfl⟩ | ⟨rfl, rfl⟩ | ⟨rfl, rfl⟩ | ⟨rfl, rfl⟩ |
    ⟨rfl, rfl⟩ | ⟨rfl, rfl⟩ | ⟨rfl, rfl⟩ <;> rfl

theorem letter_ne_of_mem {letter character : Char} (escape : (letter, character) ∈ escapes) :
    letter ≠ 'u' := by
  rintro rfl
  simp [escapes] at escape

/-- The digits of an escape are read like those of any number. -/
theorem codeUnit?_of_shows {first second third fourth : Char} {unit : Nat}
    (shows : Text.ShowsNumber 16 [first, second, third, fourth] unit) :
    codeUnit? first second third fourth = some unit :=
  Text.digitsValue?_eq_some_iff.mpr ((Text.digits_iff_showsNumber (by decide)).mpr shows)

theorem skipText_append {content : List Char} (between : IsContent content) (rest : List Char) :
    skipText (content ++ '\x22' :: rest) = .ok rest := by
  induction between with
  | nil => rw [List.nil_append, skipText]
  | @plain character content plain inner ih =>
      rcases plain with ⟨shown, quote, escape⟩
      rw [List.cons_append, skipText, if_neg (Char.not_lt.mpr shown), ih] <;> simp_all
  | @lettered letter character content escape inner ih =>
      have letter_ne := letter_ne_of_mem escape
      rw [List.cons_append, List.cons_append, skipText, escaped?_of_mem escape, ih] <;> simp_all
  | @numbered first second third fourth unit content shows inner ih =>
      simp only [List.cons_append]
      rw [skipText, codeUnit?_of_shows shows, ih]

/-! ## Values -/

/-- A value is skipped up to some of the blanks behind it, if there are enough steps. -/
def Skips (value : List Char) : Prop :=
  forall steps rest, 2 * value.length ≤ steps -> Ends rest ->
    ∃ gap, Gap gap ∧ skipValueWithin steps (value ++ rest) = .ok (gap ++ rest)

theorem ok_bind {Value Result : Type} (value : Value) (next : Value -> Except Flaw Result) :
    (Except.ok value >>= next) = next value := rfl

/-- The blanks in front of a value make no difference. -/
theorem skipValueWithin_congr {first second : List Char}
    (same : skipBlanks first = skipBlanks second) (steps : Nat) :
    skipValueWithin (steps + 1) first = skipValueWithin (steps + 1) second := by
  rw [skipValueWithin, same, skipValueWithin]

theorem skipBlanks_skipBlanks (text : List Char) : skipBlanks (skipBlanks text) = skipBlanks text :=
  List.dropWhile_idempotent _ text

theorem skipElements_skipBlanks (steps : Nat) (text : List Char) :
    skipElements (steps + 2) (skipBlanks text) = skipElements (steps + 2) text := by
  rw [skipElements, skipValueWithin_congr (skipBlanks_skipBlanks text), skipElements]

theorem skipMembers_skipBlanks (steps : Nat) (text : List Char) :
    skipMembers (steps + 1) (skipBlanks text) = skipMembers (steps + 1) text := by
  rw [skipMembers, skipBlanks_skipBlanks, skipMembers]

theorem skipValueWithin_of_digit {text : List Char} (starts : startsWithDigit text = true)
    (steps : Nat) : skipValueWithin (steps + 1) text = skipNumber text := by
  rw [skipValueWithin, skipBlanks_of_digit starts]
  -- No other kind of value starts with a digit.
  split
  rotate_right
  · exact if_pos starts
  all_goals cases starts

/-- The elements of a list are skipped with the bracket behind them. -/
theorem skipElements_append {elements : List (List Char)} (some : elements ≠ [])
    (each : forall element, element ∈ elements -> Skips element) (steps : Nat) (rest : List Char)
    (enough : 2 * ([','].intercalate elements).length < steps) :
    skipElements steps ([','].intercalate elements ++ ']' :: rest) = .ok rest := by
  induction elements generalizing steps with
  | nil => exact absurd rfl some
  | cons element elements ih =>
      rw [List.forall_mem_cons] at each
      cases steps with
      | zero => exact absurd enough (Nat.not_lt_zero _)
      | succ steps =>
          cases elements with
          | nil =>
              rw [List.intercalate_singleton] at enough ⊢
              rcases each.1 steps (']' :: rest) (by omega) (ends_cons rest (by decide)) with
                ⟨gap, blank, skipped⟩
              rw [skipElements, skipped, ok_bind, skipBlanks_append blank]
              rfl
          | cons second elements =>
              rw [List.intercalate_cons_cons] at enough ⊢
              simp only [List.length_append, List.length_singleton] at enough
              have later := ih (List.cons_ne_nil _ _) each.2 steps (by omega)
              rw [List.append_assoc, List.append_assoc, List.singleton_append]
              rcases each.1 steps (',' :: ([','].intercalate (second :: elements) ++ ']' :: rest))
                (by omega) (ends_cons _ (by decide)) with ⟨gap, blank, skipped⟩
              rw [skipElements, skipped, ok_bind, skipBlanks_append blank]
              exact later

theorem skipColon_append {gap : List Char} (blank : Gap gap) (rest : List Char) :
    skipColon (gap ++ ':' :: rest) = .ok rest := by
  rw [skipColon, skipBlanks_append blank]
  rfl

/-- The text of a member starts with the quote of its name. -/
theorem skipBlanks_text (member : Member) (behind : List Char) :
    skipBlanks (member.text ++ behind) = '\x22' :: member.opened behind := by
  rw [member.text_append, skipBlanks_append member.blank_front, skipBlanks_cons (by decide)]

/-- Up to its value a member is skipped in the same way whatever comes behind it. -/
theorem skipMembers_text {member : Member} {steps : Nat} {gap behind : List Char} {mark : Char}
    (blank : Gap gap) (skipped :
      skipValueWithin steps (member.value ++ mark :: behind) = .ok (gap ++ mark :: behind)) :
    (mark = ',' -> skipMembers (steps + 1) (member.text ++ mark :: behind) =
      skipMembers steps behind) ∧
    (mark = '\x7d' -> skipMembers (steps + 1) (member.text ++ mark :: behind) = .ok behind) := by
  rw [skipMembers, skipBlanks_text, Member.opened]
  change (_ -> (skipText _ >>= _) = _) ∧ (_ -> (skipText _ >>= _) = _)
  rw [skipText_append member.content, ok_bind, skipColon_append member.blank_back, ok_bind, skipped,
    ok_bind, skipBlanks_append blank]
  constructor <;>
  · rintro rfl
    rfl

/-- The members of an object are skipped with the brace behind them. -/
theorem skipMembers_append {members : List Member} (some : members ≠ [])
    (each : forall member, member ∈ members -> Skips member.value) (steps : Nat) (rest : List Char)
    (enough : 2 * (joined members).length < steps) :
    skipMembers steps (joined members ++ '\x7d' :: rest) = .ok rest := by
  induction members generalizing steps with
  | nil => exact absurd rfl some
  | cons member members ih =>
      rw [List.forall_mem_cons] at each
      cases steps with
      | zero => exact absurd enough (Nat.not_lt_zero _)
      | succ steps =>
          have inside : member.value.length ≤ member.text.length := by
            simp only [Member.text, Member.opened, List.length_append, List.length_cons]
            omega
          cases members with
          | nil =>
              rw [joined_singleton] at enough ⊢
              rcases each.1 steps ('\x7d' :: rest) (by omega) (ends_cons rest (by decide)) with
                ⟨gap, blank, skipped⟩
              exact (skipMembers_text blank skipped).2 rfl
          | cons second members =>
              rw [joined_cons] at enough ⊢
              simp only [List.length_append, List.length_cons] at enough
              rw [List.append_assoc, List.cons_append]
              rcases each.1 steps (',' :: (joined (second :: members) ++ '\x7d' :: rest))
                (by omega) (ends_cons _ (by decide)) with ⟨gap, blank, skipped⟩
              rw [(skipMembers_text blank skipped).1 rfl]
              exact ih (List.cons_ne_nil _ _) each.2 steps (by omega)

/-- A value that ends in no blanks is skipped up to its end.  A step is taken for it in any case,
since it has a character. -/
theorem skips_of_whole {value : List Char} (filled : value ≠ [])
    (whole : forall steps rest, 2 * value.length ≤ steps + 1 -> Ends rest ->
      skipValueWithin (steps + 1) (value ++ rest) = .ok rest) : Skips value := by
  intro steps rest enough ends
  refine ⟨[], gap_nil, ?_⟩
  have long := List.length_pos_iff.mpr filled
  cases steps with
  | zero => omega
  | succ steps => exact whole steps rest enough ends

theorem skips_word {text : List Char}
    (known : text ∈ [['n', 'u', 'l', 'l'], ['t', 'r', 'u', 'e'], ['f', 'a', 'l', 's', 'e']]) :
    Skips text := by
  simp only [List.mem_cons, List.not_mem_nil, or_false] at known
  rcases known with rfl | rfl | rfl <;>
  · refine skips_of_whole (List.cons_ne_nil _ _) fun steps rest _ _ => ?_
    rw [skipValueWithin]
    rfl

theorem IsNumber.skips {text : List Char} (number : IsNumber text) : Skips text := by
  cases number with
  | @intro sign whole fraction exponent minus first places power =>
      refine skips_of_whole ?_ fun steps rest _ ends => ?_
      · simp [first.filled]
      · have skipped := skipNumber_append ends first places power
        have starts := first.startsWithDigit_append (fraction ++ (exponent ++ rest))
        simp only [List.append_assoc]
        rcases minus with rfl | rfl
        · rw [List.nil_append, skipValueWithin_of_digit starts, skipped]
        · rw [skipValueWithin]
          exact skipped

theorem IsContent.skips {content : List Char} (between : IsContent content) :
    Skips ('\x22' :: (content ++ ['\x22'])) := by
  refine skips_of_whole (List.cons_ne_nil _ _) fun steps rest _ _ => ?_
  rw [skipValueWithin, List.cons_append, skipBlanks_cons (by decide), List.append_assoc]
  exact skipText_append between rest

theorem skips_emptyList {gap : List Char} (blank : Gap gap) : Skips ('[' :: (gap ++ [']'])) := by
  refine skips_of_whole (List.cons_ne_nil _ _) fun steps rest _ _ => ?_
  have closed : skipBlanks (gap ++ [']'] ++ rest) = ']' :: rest := by
    rw [List.append_assoc, skipBlanks_append blank]
    rfl
  rw [skipValueWithin, List.cons_append, skipBlanks_cons (by decide)]
  simp only [closed]

theorem skips_list {elements : List (List Char)} (some : elements ≠ [])
    (each : forall element, element ∈ elements -> Skips element) :
    Skips ('[' :: ([','].intercalate elements ++ [']'])) := by
  refine skips_of_whole (List.cons_ne_nil _ _) fun steps rest enough _ => ?_
  simp only [List.length_cons, List.length_append] at enough
  rcases steps with _ | _ | steps
  · omega
  · omega
  · have opened := skipElements_append some each (steps + 2) rest (by omega)
    rw [<- skipElements_skipBlanks] at opened
    rw [skipValueWithin, List.cons_append, skipBlanks_cons (by decide), List.append_assoc,
      List.singleton_append]
    simp only
    generalize skipBlanks _ = inner at opened ⊢
    -- What was skipped as elements is neither the end of the text nor that of the list.
    split
    · cases opened
    · cases opened
    · exact opened

theorem IsObject.skips {members : List Member} {text : List Char} (object : IsObject members text)
    (each : forall member, member ∈ members -> Skips member.value) : Skips text := by
  cases object with
  | @empty gap blank =>
      refine skips_of_whole (List.cons_ne_nil _ _) fun steps rest _ _ => ?_
      have closed : skipBlanks (gap ++ ['\x7d'] ++ rest) = '\x7d' :: rest := by
        rw [List.append_assoc, skipBlanks_append blank]
        rfl
      rw [skipValueWithin, List.cons_append, skipBlanks_cons (by decide)]
      simp only [closed]
  | full some =>
      refine skips_of_whole (List.cons_ne_nil _ _) fun steps rest enough _ => ?_
      simp only [objectText, List.length_cons, List.length_append] at enough
      cases steps with
      | zero => omega
      | succ steps =>
          have opened := skipMembers_append some each (steps + 1) rest (by omega)
          rw [<- skipMembers_skipBlanks] at opened
          rw [skipValueWithin, objectText_append, skipBlanks_cons (by decide)]
          simp only
          generalize skipBlanks _ = inner at opened ⊢
          -- What was skipped as members is neither the end of the text nor that of the object.
          split
          · cases opened
          · cases opened
          · exact opened

/-- The blanks in front of a value are skipped with it, and those behind it are left. -/
theorem Skips.spaced {front value back : List Char} (before : Gap front) (skips : Skips value)
    (behind : Gap back) : Skips (front ++ (value ++ back)) := by
  intro steps rest enough ends
  simp only [List.length_append] at enough
  rcases skips steps (back ++ rest) (by omega) (ends.gap_append behind) with ⟨gap, blank, skipped⟩
  refine ⟨gap ++ back, blank.append behind, ?_⟩
  simp only [List.append_assoc]
  cases steps with
  | zero =>
      rw [skipValueWithin] at skipped
      cases skipped
  | succ steps =>
      rw [skipValueWithin_congr (skipBlanks_append before _), skipped]

/-- Every value is skipped. -/
theorem IsValue.skips {value : List Char} (held : IsValue value) : Skips value := by
  induction held with
  | word known => exact skips_word known
  | number number => exact number.skips
  | text between => exact between.skips
  | emptyList blank => exact skips_emptyList blank
  | list some each ih => exact skips_list some ih
  | object object each ih => exact object.skips ih
  | spaced before held behind ih => exact ih.spaced before behind

end Json
end MemoryProbe
