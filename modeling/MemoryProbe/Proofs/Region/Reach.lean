import MemoryProbe.Kernel.LiveProcess
import MemoryProbe.Proofs.Region.Chart
import MemoryProbe.Proofs.Region.Course

namespace MemoryProbe

/-!
What a survey finds.  It visits the boundaries of the table in rising order, and a
failing query at one of them ends it; the regions it reaches are those that end
there or below.
-/

/-- A process that can be scanned: one that is written down, or one of a machine. -/
inductive Inspected where
  | staged (process : StagedProcess)
  | live (process : LiveProcess) (machine : Machine)

namespace Inspected

def target : Inspected -> Target
  | .staged process => process.target
  | .live process machine => process.target machine

/-- The regions of a process. -/
def table : Inspected -> List Region
  | .staged process => process.regions.map StagedRegion.region
  | .live process _ => process.regions

/-- The address whose query fails, if there is one. -/
def failingQuery : Inspected -> Option Address
  | .staged process => process.failingQuery
  | .live _ _ => none

end Inspected

/-- Whether a survey of a table comes to an address: zero, or where a region begins or
ends. -/
def isBoundary (table : List Region) (address : Address) : Bool :=
  address.isNull || table.any fun region => region.base == address || region.stop == address

/-- Whether a survey comes behind a region, despite a query that may fail. -/
def reaches (table : List Region) (failing : Option Address) (region : Region) : Bool :=
  failing.all fun address => !isBoundary table address || decide (region.stop ≤ address)

/-- The answers of a query are those of a table, except where the query fails. -/
structure Answers (query : Address -> Except (Halt MemoryError) (Option Region))
    (table : List Region) (failing : Option Address) : Prop where
  fails : forall address, failing = some address -> ∃ cause, query address = .error (.failure cause)
  charted : forall address, failing ≠ some address -> query address = .ok (chart table address)

theorem Inspected.answers (process : Inspected) (ordered : Ordered process.table) :
    Answers process.target.query process.table process.failingQuery := by
  cases process with
  | staged process =>
      constructor
      · intro address fails
        refine ⟨.queryFailed address StagedProcess.failedQueryCode, ?_⟩
        change StagedProcess.query process address = _
        exact if_pos fails
      · intro address fails
        change StagedProcess.query process address = _
        refine (if_neg fails).trans ?_
        rw [StagedProcess.queryTable_eq]
        rfl
  | live process machine =>
      constructor
      · intro address fails
        contradiction
      · intro address _
        change liftM (queryRegions process.regions address) = _
        have found := queryRegions_eq ordered address
        change queryRegions process.regions address = _ at found
        rw [found]
        rfl

section Boundary

variable {table : List Region} {address place : Address}

theorem isBoundary_iff :
    isBoundary table place = true <-> place.toNat = 0 ∨
      ∃ region, region ∈ table ∧ (region.base = place ∨ region.stop = place) := by
  unfold isBoundary
  rw [Bool.or_eq_true, List.any_eq_true]
  refine or_congr ?_ (exists_congr fun region => and_congr_right fun _ => ?_)
  · unfold Address.isNull Address.toNat
    rw [beq_iff_eq]
    exact ⟨fun null => congrArg UInt64.toNat null, fun null => UInt64.toNat_inj.mp null⟩
  · rw [Bool.or_eq_true, beq_iff_eq, beq_iff_eq]

end Boundary

/-- How a survey stands when it comes to an address: no region lies across it, and no
query has failed. -/
structure Standing (table : List Region) (failing : Option Address) (address : Address) :
    Prop where
  boundary : isBoundary table address = true
  aligned : forall region, region ∈ table ->
    region.stop.toNat ≤ address.toNat ∨ address.toNat ≤ region.base.toNat
  ahead : forall place, failing = some place -> isBoundary table place = true ->
    address.toNat ≤ place.toNat

/-- Whether a survey still has to find a region. -/
def wanted (survey : Survey) (table : List Region) (failing : Option Address)
    (address : Address) (region : Region) : Bool :=
  decide (address < region.stop) && (survey.keeps region && reaches table failing region)

/-- A survey goes on from an address to the next boundary: the regions in front are
behind it, and it either passes a region that begins here or the gap before it. -/
structure Passes (table : List Region) (address next : Address) (front : List Region)
    (region : Region) (back : List Region) (inside : Bool) : Prop where
  split : table = front ++ region :: back
  passed : forall earlier, earlier ∈ front -> earlier.stop.toNat ≤ address.toNat
  above : address.toNat < next.toNat
  next_eq : next = if inside then region.stop else region.base
  begins : inside = true -> region.base = address

section Survey

variable {survey : Survey} {table front back : List Region} {failing : Option Address}
  {address next : Address} {answer region : Region} {inside : Bool}

/-- A region that ends above an address leads to its end. -/
theorem next?_eq_stop (some : answer.size.toNat ≠ 0) (below : address < answer.stop) :
    answer.next? address = Option.some answer.stop := by
  unfold Region.next?
  rw [if_neg]
  rintro (empty | past)
  · exact some (congrArg UInt64.toNat empty)
  · exact absurd past (UInt64.not_le.mpr below)

/-- The gap below a region ends where the region begins. -/
theorem gap_stop (below : address < region.base) :
    (Region.gap address (region.base.value - address.value)).size.toNat =
      region.base.toNat - address.toNat ∧
    (Region.gap address (region.base.value - address.value)).stop = region.base := by
  have less := Address.lt_iff_toNat_lt.mp below
  have size : (region.base.value - address.value).toNat = region.base.toNat - address.toNat :=
    UInt64.toNat_sub_of_le _ _ (UInt64.le_iff_toNat_le.mpr (Nat.le_of_lt less))
  have bound : region.base.toNat < UInt64.size := region.base.value.toNat_lt
  refine ⟨size, Address.toNat_inj.mp ?_⟩
  rw [Region.stop_toNat]
  · change address.toNat + (region.base.value - address.value).toNat = _
    omega
  · change address.toNat + (region.base.value - address.value).toNat < _
    omega

/-- The charted answer leads to the next boundary. -/
theorem exists_passes (standing : Standing table failing address)
    (found : chart table address = some answer) :
    ∃ next front region back inside, Passes table address next front region back inside ∧
      answer.next? address = some next ∧
      (inside = true ∧ answer = region ∨ inside = false ∧ answer.state = .free) := by
  unfold chart at found
  rcases Option.map_eq_some_iff.mp found with ⟨region, first, charted⟩
  rcases List.find?_eq_some_iff_append.mp first with ⟨test, front, back, split, passed⟩
  have below : address < region.stop := of_decide_eq_true test
  have under := Address.lt_iff_toNat_lt.mp below
  have member : region ∈ table := by
    rw [split]
    exact List.mem_append_right _ List.mem_cons_self
  have behind : forall earlier, earlier ∈ front -> earlier.stop.toNat ≤ address.toNat := by
    intro earlier among
    have past := passed earlier among
    rw [Bool.not_eq_true', decide_eq_false_iff_not, Address.lt_iff_toNat_lt] at past
    omega
  by_cases begun : region.base ≤ address
  · rw [if_pos begun] at charted
    subst charted
    have low := Address.le_iff_toNat_le.mp begun
    have here : region.base = address := by
      rcases standing.aligned region member with past | starts
      · omega
      · exact Address.toNat_inj.mp (by omega)
    refine ⟨region.stop, front, region, back, true,
      ⟨split, behind, under, rfl, fun _ => here⟩, ?_, Or.inl ⟨rfl, rfl⟩⟩
    refine next?_eq_stop (fun none => ?_) below
    have held := Word.toNat_saturatingAdd region.base.value region.size
    change region.stop.value.toNat = _ at held
    unfold Address.toNat at under low
    omega
  · rw [if_neg begun] at charted
    subst charted
    have starts : address < region.base := UInt64.not_le.mp begun
    have above := Address.lt_iff_toNat_lt.mp starts
    rcases gap_stop starts with ⟨size, ends⟩
    refine ⟨region.base, front, region, back, false,
      ⟨split, behind, above, rfl, fun wrong => absurd wrong Bool.false_ne_true⟩, ?_,
      Or.inr ⟨rfl, rfl⟩⟩
    exact (next?_eq_stop (by omega) (by rw [ends]; exact starts)).trans
      (congrArg Option.some ends)

namespace Passes

variable (passes : Passes table address next front region back inside)
  (ordered : Ordered table)

include passes

theorem mem : region ∈ table := by
  rw [passes.split]
  exact List.mem_append_right _ List.mem_cons_self

theorem base_le_next : region.base.toNat ≤ next.toNat := by
  rw [passes.next_eq]
  split
  · exact region.base_le_stop
  · exact Nat.le_refl _

theorem next_le_stop : next.toNat ≤ region.stop.toNat := by
  rw [passes.next_eq]
  split
  · exact Nat.le_refl _
  · exact region.base_le_stop

include ordered

/-- What comes behind the region lies above it. -/
theorem stop_le_base {later : Region} (member : later ∈ back) :
    region.stop.toNat ≤ later.base.toNat := by
  have pairs := ordered.pairwise
  rw [passes.split] at pairs
  have tail := (List.pairwise_append.mp pairs).2.1
  have apart := (List.pairwise_cons.mp tail).1 later member
  rw [Region.stop_toNat (ordered.fits region passes.mem)]
  exact apart

/-- There is no boundary on the way. -/
theorem next_le {place : Address} (boundary : isBoundary table place = true)
    (above : address.toNat < place.toNat) : next.toNat ≤ place.toNat := by
  have low := passes.next_le_stop
  rcases isBoundary_iff.mp boundary with null | ⟨other, member, ends⟩
  · omega
  · rw [passes.split, List.mem_append, List.mem_cons] at member
    rcases member with early | rfl | late
    · have past := passes.passed other early
      have room := other.base_le_stop
      rcases ends with rfl | rfl <;> omega
    · rcases ends with rfl | rfl
      · rw [passes.next_eq]
        split
        · rename_i within
          rw [passes.begins within] at above
          omega
        · exact Nat.le_refl _
      · exact low
    · have past := passes.stop_le_base ordered late
      have room := other.base_le_stop
      rcases ends with rfl | rfl <;> omega

/-- The survey stands at the next boundary as it stood before. -/
theorem standing_next (standing : Standing table failing address)
    (holds : failing ≠ some address) : Standing table failing next := by
  have low := passes.next_le_stop
  have high := passes.base_le_next
  refine ⟨?_, ?_, ?_⟩
  · rw [isBoundary_iff, passes.next_eq]
    refine Or.inr ⟨region, passes.mem, ?_⟩
    split
    · exact Or.inr rfl
    · exact Or.inl rfl
  · intro other member
    rw [passes.split, List.mem_append, List.mem_cons] at member
    rcases member with early | rfl | late
    · have past := passes.passed other early
      have rises := passes.above
      exact Or.inl (by omega)
    · rw [passes.next_eq]
      split
      · exact Or.inl (Nat.le_refl _)
      · exact Or.inr (Nat.le_refl _)
    · have past := passes.stop_le_base ordered late
      exact Or.inr (by omega)
  · intro place fails boundary
    have least := standing.ahead place fails boundary
    apply passes.next_le ordered boundary
    have differs : address.toNat ≠ place.toNat := fun same =>
      holds (Address.toNat_inj.mp same ▸ fails)
    omega

omit passes in
/-- Regions that are kept are not empty. -/
theorem lt_stop_of_keeps (nonempty : 0 < survey.minimumSize.toNat) {other : Region}
    (member : other ∈ table) (kept : survey.keeps other = true) :
    other.base.toNat < other.stop.toNat := by
  unfold Survey.keeps at kept
  rw [Bool.and_eq_true, decide_eq_true_eq, UInt64.le_iff_toNat_le] at kept
  rw [Region.stop_toNat (ordered.fits other member)]
  omega

omit passes ordered in
theorem wanted_of_stop_le {place : Address} {other : Region}
    (past : other.stop.toNat ≤ place.toNat) :
    wanted survey table failing place other = false := by
  unfold wanted
  rw [decide_eq_false (fun below => by
    have less := Address.lt_iff_toNat_lt.mp below
    omega), Bool.false_and]

omit ordered in
/-- A region that ends above the next boundary, if it is kept, is wanted there as before. -/
theorem wanted_next {other : Region}
    (above : survey.keeps other = true -> next.toNat < other.stop.toNat) :
    wanted survey table failing address other = wanted survey table failing next other := by
  have rises := passes.above
  unfold wanted
  cases kept : survey.keeps other with
  | false => rw [Bool.false_and, Bool.and_false, Bool.and_false]
  | true =>
      have ends := above kept
      rw [decide_eq_true (Address.lt_iff_toNat_lt.mpr (by omega : address.toNat < _)),
        decide_eq_true (Address.lt_iff_toNat_lt.mpr ends)]

omit passes ordered in
/-- A survey that stands at the end of a region has come behind it. -/
theorem reaches_of_standing (standing : Standing table failing region.stop) :
    reaches table failing region = true := by
  unfold reaches
  rw [Option.all_eq_true]
  intro place fails
  cases boundary : isBoundary table place with
  | false => rfl
  | true =>
      have least := standing.ahead place fails boundary
      rw [decide_eq_true (Address.le_iff_toNat_le.mpr least)]
      rfl

/-- Of the region itself is wanted what was passed, or it is still wanted. -/
theorem filter_region (standing : Standing table failing next)
    (nonempty : 0 < survey.minimumSize.toNat) :
    [region].filter (wanted survey table failing address) =
      (if inside && survey.keeps region then [region] else []) ++
        [region].filter (wanted survey table failing next) := by
  cases within : inside with
  | true =>
      have ends : next = region.stop := by
        rw [passes.next_eq, within, if_pos rfl]
      have below : address < region.stop := by
        rw [<- ends]
        exact Address.lt_iff_toNat_lt.mpr passes.above
      have passed : wanted survey table failing next region = false :=
        wanted_of_stop_le (Nat.le_of_eq (by rw [ends]))
      have taken : wanted survey table failing address region = survey.keeps region := by
        unfold wanted
        rw [reaches_of_standing (ends ▸ standing), decide_eq_true below, Bool.true_and,
          Bool.and_true]
      rw [List.filter_cons, List.filter_cons, passed, taken]
      simp
  | false =>
      have ends : next = region.base := by
        rw [passes.next_eq, within, if_neg Bool.false_ne_true]
      have same : wanted survey table failing address region =
          wanted survey table failing next region :=
        passes.wanted_next fun kept => by
          rw [ends]
          exact lt_stop_of_keeps ordered nonempty passes.mem kept
      rw [List.filter_cons, List.filter_cons, same]
      rfl

/-- What is wanted on the way is the region that was passed, if it is kept. -/
theorem filter_wanted (standing : Standing table failing next)
    (nonempty : 0 < survey.minimumSize.toNat) :
    table.filter (wanted survey table failing address) =
      (if inside && survey.keeps region then [region] else []) ++
        table.filter (wanted survey table failing next) := by
  have low := passes.next_le_stop
  have front_nil : forall place : Address, address.toNat ≤ place.toNat ->
      front.filter (wanted survey table failing place) = [] := by
    intro place least
    refine List.filter_eq_nil_iff.mpr fun other early => ?_
    rw [wanted_of_stop_le (Nat.le_trans (passes.passed other early) least)]
    exact Bool.false_ne_true
  have back_same : back.filter (wanted survey table failing address) =
      back.filter (wanted survey table failing next) := by
    refine List.filter_congr fun other late => passes.wanted_next fun kept => ?_
    have past := passes.stop_le_base ordered late
    have member : other ∈ table := by
      rw [passes.split]
      exact List.mem_append_right _ (List.mem_cons_of_mem _ late)
    have room := lt_stop_of_keeps ordered nonempty member kept
    omega
  have parts : forall test : Region -> Bool,
      table.filter test = front.filter test ++ ([region].filter test ++ back.filter test) := by
    intro test
    rw [passes.split, <- List.singleton_append, List.filter_append, List.filter_append]
  rw [parts, parts, front_nil address (Nat.le_refl _),
    front_nil next (Nat.le_of_lt passes.above), back_same,
    passes.filter_region ordered standing nonempty]
  simp

end Passes

section Answers

variable {query : Address -> Except (Halt MemoryError) (Option Region)}

/-- An answer is that of the table. -/
theorem Answers.charted_of_ok (answers : Answers query table failing)
    {found : Option Region} (answered : query address = .ok found) :
    failing ≠ some address ∧ chart table address = found := by
  have holds : failing ≠ some address := by
    intro fails
    rcases answers.fails address fails with ⟨cause, failed⟩
    rw [answered] at failed
    contradiction
  have charted := answers.charted address holds
  rw [answered, Except.ok.injEq] at charted
  exact ⟨holds, charted.symm⟩

theorem Answers.fails_of_error (answers : Answers query table failing)
    {stop : Halt MemoryError} (answered : query address = .error stop) :
    failing = some address := by
  by_cases holds : failing = some address
  · exact holds
  · have charted := answers.charted address holds
    rw [answered] at charted
    contradiction

/-- No query faults. -/
theorem Answers.calm (answers : Answers query table failing) (address : Address)
    (kind : Fault) : query address ≠ .error (.fault kind) := by
  intro fault
  rcases answers.fails address (answers.fails_of_error fault) with ⟨cause, failed⟩
  rw [fault] at failed
  cases failed

/-- Behind a failing query nothing is wanted. -/
theorem Standing.filter_wanted_of_fails (standing : Standing table failing address)
    (fails : failing = some address) :
    table.filter (wanted survey table failing address) = [] := by
  refine List.filter_eq_nil_iff.mpr fun region _ want => ?_
  unfold wanted reaches at want
  rw [fails, Option.all_some, standing.boundary, Bool.not_true, Bool.false_or,
    Bool.and_eq_true, Bool.and_eq_true, decide_eq_true_eq, decide_eq_true_eq,
    Address.lt_iff_toNat_lt, Address.le_iff_toNat_le] at want
  omega

/-- Behind the last region nothing is wanted. -/
theorem filter_wanted_of_uncharted (past : chart table address = none) :
    table.filter (wanted survey table failing address) = [] := by
  unfold chart at past
  rw [Option.map_eq_none_iff, List.find?_eq_none] at past
  refine List.filter_eq_nil_iff.mpr fun region member want => ?_
  unfold wanted at want
  rw [Bool.and_eq_true] at want
  exact past region member want.1

/-- The visits from where a survey stands find what is still wanted. -/
theorem found_visitsFrom (answers : Answers query table failing) (ordered : Ordered table)
    (committed : survey.committedOnly = true) (nonempty : 0 < survey.minimumSize.toNat)
    (standing : Standing table failing address) :
    survey.found (visitsFrom query address) =
      table.filter (wanted survey table failing address) := by
  induction address using visitsFrom.induct query with
  | case1 address answer region answered next later ih =>
      change query address = .ok (some region) at answered
      rcases answers.charted_of_ok answered with ⟨holds, charted⟩
      rcases exists_passes standing charted with
        ⟨place, front, passed, back, inside, passes, leads, kind⟩
      rw [later, Option.some.injEq] at leads
      subst leads
      have onward := passes.standing_next ordered standing holds
      rw [passes.filter_wanted ordered onward nonempty, <- ih onward, visitsFrom_cons, answered,
        found_cons, Visit.next?_some, later]
      dsimp only
      refine congrArg (fun first => first ++ _) ?_
      rcases kind with ⟨rfl, rfl⟩ | ⟨rfl, free⟩
      · rfl
      · have left : survey.keeps region = false := by
          unfold Survey.keeps Region.isCommitted
          rw [committed, free]
          rfl
        rw [left]
        rfl
  | case2 address answer region answered last =>
      change query address = .ok (some region) at answered
      rcases answers.charted_of_ok answered with ⟨holds, charted⟩
      rcases exists_passes standing charted with
        ⟨place, front, passed, back, inside, passes, leads, kind⟩
      rw [last] at leads
      contradiction
  | case3 address answer none =>
      rw [visitsFrom_cons, found_cons]
      cases answered : query address with
      | error stop =>
          exact (standing.filter_wanted_of_fails (answers.fails_of_error answered)).symm
      | ok other =>
          cases other with
          | some region => exact absurd answered (none region)
          | none => exact (filter_wanted_of_uncharted (answers.charted_of_ok answered).2).symm

end Answers

/-- A survey of a process whose queries may only fail finds the kept regions that it
reaches. -/
theorem found_visits {query : Address -> Except (Halt MemoryError) (Option Region)}
    (answers : Answers query table failing) (ordered : Ordered table)
    (committed : survey.committedOnly = true) (nonempty : 0 < survey.minimumSize.toNat) :
    survey.found (visitsFrom query Address.zero) =
      table.filter fun region => survey.keeps region && reaches table failing region := by
  have standing : Standing table failing Address.zero :=
    ⟨rfl, fun region _ => Or.inr (Nat.zero_le _), fun place _ _ => Nat.zero_le _⟩
  rw [found_visitsFrom answers ordered committed nonempty standing]
  refine List.filter_congr fun region member => ?_
  unfold wanted
  cases kept : survey.keeps region with
  | false => rw [Bool.false_and, Bool.and_false]
  | true =>
      have room := Passes.lt_stop_of_keeps ordered nonempty member kept
      have above : Address.zero < region.stop :=
        Address.lt_iff_toNat_lt.mpr (Nat.zero_lt_of_lt room)
      rw [decide_eq_true above, Bool.true_and]

/-- Such a survey comes to an end without a fault. -/
theorem run_survey {Cause : Type} {target : Target} (answers : Answers target.query table failing)
    (ordered : Ordered table) (committed : survey.committedOnly = true)
    (nonempty : 0 < survey.minimumSize.toNat) (trace : Trace) :
    ∃ warnings, (survey.run target : Run Cause (List Region)) trace =
      (.ok (table.filter fun region => survey.keeps region && reaches table failing region),
        { trace with warnings := warnings }) := by
  refine ⟨trace.warnings ++
    Survey.warnings target.pid (visitsFrom target.query Address.zero), ?_⟩
  rw [Survey.run_of_calm survey answers.calm, found_visits answers ordered committed nonempty]

end Survey

end MemoryProbe
