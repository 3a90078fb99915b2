namespace MemoryProbe

/-!
Answers for all entries of a list.  They come together exactly if each entry has an
answer of its own.
-/

variable {α β ε : Type} {answer : α -> Except ε β}

theorem mapM_eq_ok_iff {entries : List α} {results : List β} :
    entries.mapM answer = .ok results <-> entries.map answer = results.map Except.ok := by
  induction entries generalizing results with
  | nil => cases results <;> simp [pure, Except.pure]
  | cons entry rest ih =>
      rw [List.mapM_cons, List.map_cons]
      cases first : answer entry with
      | error cause => cases results <;> simp [bind, Except.bind]
      | ok result =>
          cases results with
          | nil => cases rest.mapM answer <;> simp [bind, Except.bind, pure, Except.pure]
          | cons head later =>
              rw [List.map_cons, List.cons.injEq, Except.ok.injEq, <- ih]
              cases rest.mapM answer <;> simp [bind, Except.bind, pure, Except.pure]

variable {entries : List α} {results : List β}

/-- A result is the answer for an entry. -/
theorem exists_entry_of_mapM (answered : entries.mapM answer = .ok results) {result : β}
    (member : result ∈ results) : ∃ entry, entry ∈ entries ∧ answer entry = .ok result := by
  have listed : Except.ok result ∈ entries.map answer := by
    rw [mapM_eq_ok_iff.mp answered]
    exact List.mem_map_of_mem member
  exact List.mem_map.mp listed

/-- The answer for an entry is a result. -/
theorem exists_result_of_mapM (answered : entries.mapM answer = .ok results) {entry : α}
    (member : entry ∈ entries) : ∃ result, result ∈ results ∧ answer entry = .ok result := by
  have listed : answer entry ∈ results.map Except.ok := by
    rw [<- mapM_eq_ok_iff.mp answered]
    exact List.mem_map_of_mem member
  rcases List.mem_map.mp listed with ⟨result, among, same⟩
  exact ⟨result, among, same.symm⟩

/-- What is left of the results are the answers that are something. -/
theorem mem_filterMap_of_mapM {β : Type} {answer : α -> Except ε (Option β)}
    {results : List (Option β)} (answered : entries.mapM answer = .ok results) {result : β} :
    result ∈ results.filterMap id <->
      ∃ entry, entry ∈ entries ∧ answer entry = .ok (some result) := by
  rw [List.mem_filterMap]
  constructor
  · rintro ⟨found, member, rfl⟩
    exact exists_entry_of_mapM answered member
  · rintro ⟨entry, member, stands⟩
    rcases exists_result_of_mapM answered member with ⟨found, among, same⟩
    rw [stands, Except.ok.injEq] at same
    exact ⟨some result, same ▸ among, rfl⟩

/-- Entries that have answers have them together. -/
theorem exists_mapM (total : forall entry, entry ∈ entries -> ∃ result, answer entry = .ok result) :
    ∃ results, entries.mapM answer = .ok results := by
  induction entries with
  | nil => exact ⟨[], rfl⟩
  | cons entry rest ih =>
      rcases total entry List.mem_cons_self with ⟨result, first⟩
      rcases ih fun other member => total other (List.mem_cons_of_mem _ member) with
        ⟨others, later⟩
      exact ⟨result :: others, by rw [List.mapM_cons, first, later]; rfl⟩

/-- Of the entries that are kept, the first without an answer decides. -/
theorem mapM_filter_error (keep : α -> Bool) {entry : α} (member : entry ∈ entries)
    (kept : keep entry = true) (failed : forall result, answer entry ≠ .ok result) :
    ∃ before bad after cause, entries = before ++ bad :: after ∧ keep bad = true ∧
      answer bad = .error cause ∧
      (forall earlier, earlier ∈ before -> keep earlier = true ->
        ∃ result, answer earlier = .ok result) ∧
      (entries.filter keep).mapM answer = .error cause := by
  induction entries with
  | nil => exact absurd member List.not_mem_nil
  | cons first rest ih =>
      by_cases good : keep first = true -> ∃ result, answer first = .ok result
      · have inside : entry ∈ rest := by
          rcases List.mem_cons.mp member with rfl | inside
          · rcases good kept with ⟨result, answered⟩
            exact absurd answered (failed result)
          · exact inside
        rcases ih inside with ⟨before, bad, after, cause, split, keeps, fails, earlier, whole⟩
        refine ⟨first :: before, bad, after, cause, by rw [split]; rfl, keeps, fails,
          List.forall_mem_cons.mpr ⟨good, earlier⟩, ?_⟩
        cases here : keep first with
        | false => rwa [List.filter_cons_of_neg (by simp [here])]
        | true =>
            rcases good here with ⟨result, answered⟩
            rw [List.filter_cons_of_pos here, List.mapM_cons, answered, whole]
            rfl
      · rcases Classical.not_imp.mp good with ⟨here, fails⟩
        cases answered : answer first with
        | ok result => exact absurd ⟨result, answered⟩ fails
        | error cause =>
            refine ⟨[], first, rest, cause, rfl, here, answered,
              fun _ none => absurd none List.not_mem_nil, ?_⟩
            rw [List.filter_cons_of_pos here, List.mapM_cons, answered]
            rfl

end MemoryProbe
