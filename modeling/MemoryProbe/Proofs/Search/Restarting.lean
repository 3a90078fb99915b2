import Mathlib
import MemoryProbe.Proofs.Pool.Faultless
import MemoryProbe.Search.Matcher

namespace MemoryProbe

/-!
That restarting a search misses nothing.  Between the cursor and the place that a finder
tells there is no other one, and the next turn begins one byte behind that place, so that
no place lies between two turns either.  The search ends where the pattern no longer fits,
and behind that offset there is no place.  So the places that a scan lists in its blocks are
those that the search tells there.
-/

namespace Pattern

variable {pattern : Pattern} {bytes : List UInt8} {offset : Nat}

/-- An occurrence is a stretch of the data that equals the pattern. -/
theorem mem_occurrences_iff_take :
    offset ∈ pattern.occurrences bytes <->
      offset + pattern.length ≤ bytes.length ∧
        (bytes.drop offset).take pattern.length = pattern.bytes := by
  constructor
  · intro member
    have here := mem_occurrences.mp member
    exact ⟨add_length_le_of_mem member, (List.prefix_iff_eq_take.mp here).symm⟩
  · rintro ⟨-, same⟩
    exact mem_occurrences.mpr (List.prefix_iff_eq_take.mpr same.symm)

theorem mem_occurrences_drop {cursor hit : Nat} :
    hit ∈ pattern.occurrences (bytes.drop cursor) <->
      cursor + hit ∈ pattern.occurrences bytes := by
  rw [mem_occurrences, mem_occurrences, List.drop_drop]

/-- From an occurrence on, when none lies between the cursor and it. -/
theorem filter_occurrences_of_first {cursor : Nat} (member : offset ∈ pattern.occurrences bytes)
    (above : cursor ≤ offset)
    (first : forall other, other ∈ pattern.occurrences bytes -> cursor ≤ other ->
      offset ≤ other) :
    (pattern.occurrences bytes).filter (fun other => cursor ≤ other) =
      offset :: (pattern.occurrences bytes).filter (fun other => offset + 1 ≤ other) := by
  have later : (offset :: (pattern.occurrences bytes).filter
      (fun other => offset + 1 ≤ other)).Pairwise (fun left right => left < right) := by
    refine List.pairwise_cons.mpr ⟨fun other among => ?_, occurrences_sorted.filter _⟩
    exact of_decide_eq_true (List.mem_filter.mp among).2
  refine (occurrences_sorted.filter _).eq_of_mem_iff later fun other => ?_
  simp only [List.mem_filter, List.mem_cons, decide_eq_true_eq]
  constructor
  · rintro ⟨among, high⟩
    have low := first other among high
    rcases Nat.eq_or_lt_of_le low with same | less
    · exact Or.inl same.symm
    · exact Or.inr ⟨among, less⟩
  · rintro (rfl | ⟨among, high⟩)
    · exact ⟨member, above⟩
    · exact ⟨among, by omega⟩

/-- Looking byte by byte finds the first place. -/
theorem firstFrom_eq_head? (pattern : Pattern) (offset : Nat) (bytes : List UInt8) :
    pattern.firstFrom offset bytes = (pattern.collect offset [] bytes).head? := by
  induction bytes generalizing offset with
  | nil => rfl
  | cons byte rest ih =>
      unfold firstFrom collect
      split
      · rw [collect_eq_append]
        rfl
      · exact ih (offset + 1)

end Pattern

namespace Matcher

/-- What a finder is relied on for: it tells the first place of the pattern in whatever
bytes it is given, and tells none only if there is none. -/
structure Leftmost (matcher : Matcher) : Prop where
  find_some : forall bytes place, matcher.find bytes = some place ->
    matcher.pattern.bytes <+: bytes.drop place ∧
    forall earlier, earlier < place -> ¬ matcher.pattern.bytes <+: bytes.drop earlier
  find_none : forall bytes, matcher.find bytes = none ->
    forall place, ¬ matcher.pattern.bytes <+: bytes.drop place

theorem leftmost_ofPattern (pattern : Pattern) : (ofPattern pattern).Leftmost := by
  have first (bytes : List UInt8) :
      (ofPattern pattern).find bytes = (pattern.occurrences bytes).head? :=
    pattern.firstFrom_eq_head? 0 bytes
  refine ⟨fun bytes place found => ?_, fun bytes none place here => ?_⟩
  · rw [first] at found
    rcases List.head?_eq_some_iff.mp found with ⟨rest, listed⟩
    have sorted : (pattern.occurrences bytes).Pairwise fun left right => left < right :=
      Pattern.occurrences_sorted
    rw [listed] at sorted
    have member : place ∈ pattern.occurrences bytes := List.mem_of_head? found
    refine ⟨Pattern.mem_occurrences.mp member, fun earlier less here => ?_⟩
    have among : earlier ∈ pattern.occurrences bytes := Pattern.mem_occurrences.mpr here
    rw [listed] at among
    rcases List.mem_cons.mp among with rfl | later
    · exact Nat.lt_irrefl earlier less
    · exact Nat.lt_asymm less (List.rel_of_pairwise_cons sorted later)
  · rw [first, List.head?_eq_none_iff] at none
    have member : place ∈ pattern.occurrences bytes := Pattern.mem_occurrences.mpr here
    rw [none] at member
    exact List.not_mem_nil member

variable {matcher : Matcher} {bytes : List UInt8} {cursor : Nat}

theorem turn_of_lt (room : cursor + matcher.pattern.length < UInt64.size)
    (beyond : bytes.length < cursor + matcher.pattern.length) :
    matcher.turn bytes cursor = .ok none := by
  rw [turn, sizeSum_of_lt room]
  exact if_neg (Nat.not_le.mpr beyond)

theorem turn_of_le (room : cursor + matcher.pattern.length < UInt64.size)
    (inside : cursor + matcher.pattern.length ≤ bytes.length) :
    matcher.turn bytes cursor =
      match matcher.find (bytes.drop cursor) with
      | none => .ok none
      | some hit => (pass cursor hit).map some := by
  have slice : behind bytes cursor = .ok (bytes.drop cursor) :=
    behind_eq_ok_iff.mpr ⟨Nat.le_of_add_right_le inside, rfl⟩
  rw [turn, sizeSum_of_lt room]
  refine (if_pos inside).trans ?_
  rw [slice]
  change (match matcher.find (bytes.drop cursor) with | none => _ | some hit => _) = _
  cases matcher.find (bytes.drop cursor) with
  | none => rfl
  | some hit => cases pass cursor hit <;> rfl

/-- What a turn answers: the first occurrence from the cursor on, and that the search goes on
one byte behind it; or that there is no occurrence any more. -/
inductive Turned (matcher : Matcher) (bytes : List UInt8) (cursor : Nat) :
    Except Fault (Option (Nat × Nat)) -> Prop where
  | ended (below : forall other, other ∈ matcher.pattern.occurrences bytes -> other < cursor) :
      Turned matcher bytes cursor (.ok none)
  | hit {offset : Nat} (member : offset ∈ matcher.pattern.occurrences bytes)
      (above : cursor ≤ offset)
      (first : forall other, other ∈ matcher.pattern.occurrences bytes -> cursor ≤ other ->
        offset ≤ other) :
      Turned matcher bytes cursor (.ok (some (offset, offset + 1)))

theorem Leftmost.turned (leftmost : matcher.Leftmost) (held : bytes.length + 1 < UInt64.size)
    (room : cursor + matcher.pattern.length < UInt64.size) :
    Turned matcher bytes cursor (matcher.turn bytes cursor) := by
  by_cases inside : cursor + matcher.pattern.length ≤ bytes.length
  · rw [turn_of_le room inside]
    cases found : matcher.find (bytes.drop cursor) with
    | none =>
        refine .ended fun other member => Nat.lt_of_not_le fun above => ?_
        apply leftmost.find_none _ found (other - cursor)
        rw [List.drop_drop, Nat.add_sub_cancel' above]
        exact Pattern.mem_occurrences.mp member
    | some hit =>
        rcases leftmost.find_some _ hit found with ⟨here, earliest⟩
        have member : cursor + hit ∈ matcher.pattern.occurrences bytes :=
          Pattern.mem_occurrences_drop.mp (Pattern.mem_occurrences.mpr here)
        have fits := Pattern.lt_length_of_mem member
        dsimp only
        rw [pass_eq_ok_iff.mpr ⟨by omega, rfl⟩]
        refine .hit member (Nat.le_add_right _ _) fun other among above => ?_
        by_contra less
        apply earliest (other - cursor) (by omega)
        rw [List.drop_drop, Nat.add_sub_cancel' above]
        exact Pattern.mem_occurrences.mp among
  · rw [turn_of_lt room (Nat.lt_of_not_le inside)]
    refine .ended fun other member => ?_
    have reach := Pattern.add_length_le_of_mem member
    omega

/-- From a cursor on, the search tells the occurrences that do not begin before it. -/
theorem Leftmost.searchFrom_eq (leftmost : matcher.Leftmost)
    (held : bytes.length + 1 < UInt64.size) (found : List Nat)
    (room : cursor + matcher.pattern.length < UInt64.size) :
    matcher.searchFrom bytes cursor found =
      .ok (found.reverse ++
        (matcher.pattern.occurrences bytes).filter fun offset => cursor ≤ offset) := by
  induction cursor, found using searchFrom.induct matcher bytes with
  | case1 cursor found kind failed =>
      have turned := leftmost.turned held room
      rw [failed] at turned
      cases turned
  | case2 cursor found done =>
      have turned := leftmost.turned held room
      rw [done] at turned
      cases turned with
      | ended below =>
          have none : (matcher.pattern.occurrences bytes).filter
              (fun offset => cursor ≤ offset) = [] := by
            apply List.filter_eq_nil_iff.mpr
            intro other member
            simpa using below other member
          rw [searchFrom_of_none done, none, List.append_nil]
  | case3 cursor found offset next again ih =>
      have turned := leftmost.turned held room
      rw [again] at turned
      cases turned with
      | hit member above first =>
          have reach := Pattern.add_length_le_of_mem member
          rw [searchFrom_of_some again, ih (by omega),
            Pattern.filter_occurrences_of_first member above first, List.reverse_cons,
            List.append_assoc]
          rfl

theorem Leftmost.findAll_eq (leftmost : matcher.Leftmost)
    (held : bytes.length + 1 < UInt64.size) (short : matcher.pattern.length < UInt64.size) :
    matcher.findAll bytes = .ok (matcher.pattern.occurrences bytes) := by
  have room : 0 + matcher.pattern.length < UInt64.size := (Nat.zero_add _).trans_lt short
  have searched := leftmost.searchFrom_eq held [] room
  simpa [findAll] using searched

/-- With a finder that tells the first place, the search ends, takes no slice from behind
the data and forms no sum that is no word.  It tells the offsets at which the data equals
the pattern, each once and in rising order, overlapping ones as well: the occurrences that
a scan lists.  No data in memory is so long, and no pattern, that a word cannot tell the
offset behind its end. -/
theorem findAll_tells_occurrences (leftmost : matcher.Leftmost)
    (held : bytes.length + 1 < 2 ^ 64) (short : matcher.pattern.length < 2 ^ 64) :
    ∃ offsets, matcher.findAll bytes = .ok offsets ∧
      offsets = matcher.pattern.occurrences bytes ∧
      offsets.Pairwise (fun offset later => offset < later) ∧
      forall offset, offset ∈ offsets <->
        offset + matcher.pattern.length ≤ bytes.length ∧
          (bytes.drop offset).take matcher.pattern.length = matcher.pattern.bytes := by
  exact ⟨_, leftmost.findAll_eq held short, rfl, Pattern.occurrences_sorted,
    fun offset => Pattern.mem_occurrences_iff_take⟩

/-- Two bytes alike, three times in four. -/
theorem findAll_tells_occurrences_of_twins :
    (Pattern.mk [7, 7] (by decide)).length < 2 ^ 64 ∧
    (ofPattern ⟨[7, 7], by decide⟩).findAll [7, 7, 7, 7] = .ok [0, 1, 2] := by
  have short : (Pattern.mk [7, 7] (by decide)).length < 2 ^ 64 := by decide
  rcases findAll_tells_occurrences (leftmost_ofPattern ⟨[7, 7], by decide⟩)
    (show [7, 7, 7, 7].length + 1 < 2 ^ 64 by decide) short with ⟨offsets, found, rfl, -⟩
  exact ⟨short, found⟩

/-- The addresses in a block at which the search tells the pattern in the bytes of the
block. -/
def placesIn (matcher : Matcher) (block : ReadBlock) (bytes : List UInt8) :
    Except Fault (List Address) := do
  (<- matcher.findAll bytes).mapM fun offset => block.start.advance (UInt64.ofNat offset)

/-- Whoever handles a block that was read in full may search it with such a finder.  The
blocks fit the buffers that are made before the first read, and these are short enough for
every sum of the search. -/
theorem Leftmost.placesIn_eq {workers : Word} {blocks : List ReadBlock} {arena : Arena}
    {block : ReadBlock} (leftmost : matcher.Leftmost)
    (short : matcher.pattern.length < UInt64.size) (manned : workers ≠ 0)
    (made : Arena.make workers ((longestBlock? blocks).getD 0) = .ok arena)
    (member : block ∈ blocks) (whole : bytes.length = block.length.toNat) :
    matcher.placesIn block bytes = block.placesOf matcher.pattern bytes := by
  have fits := le_longestBlock member
  have total := (Arena.make_eq_ok manned made).2
  have positive : 1 ≤ workers.toNat :=
    Nat.pos_of_ne_zero fun none => manned (UInt64.toNat_inj.mp none)
  have least := Nat.le_mul_of_pos_left ((longestBlock? blocks).getD 0).toNat positive
  have limit : allocationLimit + 1 < UInt64.size := by decide
  have held : bytes.length + 1 < UInt64.size := by omega
  unfold placesIn
  rw [leftmost.findAll_eq held short]
  rfl

end Matcher
end MemoryProbe
