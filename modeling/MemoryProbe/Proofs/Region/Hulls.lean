import Mathlib
import MemoryProbe.Kernel.Tasks
import MemoryProbe.Proofs.Mapping
import MemoryProbe.Proofs.Region.Kinds

namespace MemoryProbe

/-!
All images of a list of mappings.  Each file that is executed has one image, which reaches from
the least start to the greatest end of the mappings of that file, and the images are sorted by
base and then by path.  This leaves nothing to the order in which the mappings are listed.  As no
mapping ends before it starts, no image does, and the size of each image in a listing is the
difference of its ends.
-/

/-- An image reaches from the least start to the greatest end of some mappings. -/
structure ImageModule.Spans (mappings : List Mapping) (image : ImageModule) : Prop where
  hull : image.Hull mappings
  ends : ∃ highest, highest ∈ mappings ∧ highest.stop = image.stop

/-- What is listed of an image: its size is the difference of its ends, which is not negative. -/
structure ModuleEntry.Shows (image : ImageModule) (entry : ModuleEntry) : Prop where
  name_eq : entry.name = moduleBaseName image.path
  path_eq : entry.path = image.path
  base_eq : entry.base = ⟨image.base⟩
  size_eq : Word.difference image.stop image.base = .ok entry.size

/-- Whether a file is executed: some mapping maps it and lets it execute. -/
def Executed (mappings : List Mapping) (path : String) : Prop :=
  ∃ mapping, mapping ∈ mappings ∧ mapping.isFileBacked = true ∧
    mapping.protection.canExecute = true ∧ mapping.path = some path

theorem nodup_eraseDups {α : Type} [BEq α] [LawfulBEq α] (entries : List α) :
    entries.eraseDups.Nodup := by
  match entries with
  | [] => exact List.nodup_nil
  | first :: rest =>
      rw [List.eraseDups_cons, List.nodup_cons]
      exact ⟨by simp, nodup_eraseDups (rest.filter fun other => !other == first)⟩
termination_by entries.length
decreasing_by exact Nat.lt_succ_of_le (List.length_filter_le _ _)

namespace ImageModule

variable {mappings others : List Mapping} {image other : ImageModule} {path : String}

/-! ## The extent of an image -/

/-- An image that was extended by mappings ends where it ended before or where one of them
ends. -/
theorem stop_foldl_adjoin {rest : List Mapping} (image : ImageModule) :
    (rest.foldl adjoin image).stop = image.stop ∨
      ∃ highest, highest ∈ rest ∧ highest.stop = (rest.foldl adjoin image).stop := by
  induction rest generalizing image with
  | nil => exact Or.inl rfl
  | cons mapping rest ih =>
      rw [List.foldl_cons]
      rcases ih (image.adjoin mapping) with same | ⟨highest, member, ends⟩
      · have stop : (image.adjoin mapping).stop =
            if image.stop ≤ mapping.stop then mapping.stop else image.stop := rfl
        rw [same, stop]
        split
        · exact Or.inr ⟨mapping, List.mem_cons_self, rfl⟩
        · exact Or.inl rfl
      · exact Or.inr ⟨highest, List.mem_cons_of_mem _ member, ends⟩

/-- The image of a file spans the mappings of the file. -/
theorem spans_of_ofPath? (made : ofPath? mappings path = some image) :
    image.path = path ∧ image.Spans (mappingsOf path mappings) := by
  rcases hull_of_ofPath? made with ⟨named, hull⟩
  refine ⟨named, hull, ?_⟩
  unfold ofPath? at made
  split at made
  · contradiction
  · rename_i first rest listed
    cases made
    rw [listed]
    rcases @stop_foldl_adjoin rest ⟨first.start, first.stop, path⟩ with
      same | ⟨highest, member, ends⟩
    · exact ⟨first, List.mem_cons_self, same.symm⟩
    · exact ⟨highest, List.mem_cons_of_mem _ member, ends⟩

theorem Spans.of_mem_iff (spans : image.Spans mappings)
    (same : forall mapping, mapping ∈ others <-> mapping ∈ mappings) : image.Spans others := by
  rcases spans.ends with ⟨highest, member, ends⟩
  exact ⟨spans.hull.of_mem_iff same, highest, (same highest).mpr member, ends⟩

/-- The same mappings, however they are listed, have the same extent. -/
theorem Spans.eq {listed listed' : List Mapping} (here : image.Spans listed)
    (there : other.Spans listed') (same : forall mapping, mapping ∈ listed <-> mapping ∈ listed')
    (named : image.path = other.path) : image = other := by
  rcases here.hull.begins with ⟨lowest, low, begins⟩
  rcases there.hull.begins with ⟨lowest', low', begins'⟩
  rcases here.ends with ⟨highest, high, ends⟩
  rcases there.ends with ⟨highest', high', ends'⟩
  have base : image.base = other.base := UInt64.le_antisymm
    (begins' ▸ here.hull.base_le lowest' ((same _).mpr low'))
    (begins ▸ there.hull.base_le lowest ((same _).mp low))
  have stop : image.stop = other.stop := UInt64.le_antisymm
    (ends ▸ there.hull.le_stop highest ((same _).mp high))
    (ends' ▸ here.hull.le_stop highest' ((same _).mpr high'))
  rcases image with ⟨base, stop, path⟩
  rcases other with ⟨base', stop', path'⟩
  rw [ImageModule.mk.injEq]
  exact ⟨base, stop, named⟩

/-- An image of mappings that do not end before they start does not either. -/
theorem Spans.base_le_stop (spans : image.Spans mappings)
    (rising : forall mapping, mapping ∈ mappings -> mapping.start ≤ mapping.stop) :
    image.base ≤ image.stop := by
  rcases spans.hull.begins with ⟨lowest, member, begins⟩
  exact begins ▸ UInt64.le_trans (rising lowest member) (spans.hull.le_stop lowest member)

/-! ## One image for each executed file -/

/-- The images are those of the executed files. -/
theorem mem_ofMappings_iff :
    image ∈ ofMappings mappings <->
      Executed mappings image.path ∧ image.Spans (mappingsOf image.path mappings) := by
  rw [mem_ofMappings]
  constructor
  · rintro ⟨path, executed, made⟩
    rcases spans_of_ofPath? made with ⟨rfl, spans⟩
    exact ⟨mem_executablePaths.mp executed, spans⟩
  · rintro ⟨executed, spans⟩
    rcases executed with ⟨mapping, member, file, runs, named⟩
    rcases exists_ofPath? member file named with ⟨made, made_eq⟩
    rcases spans_of_ofPath? made_eq with ⟨called, spans'⟩
    refine ⟨image.path, mem_executablePaths.mpr ⟨mapping, member, file, runs, named⟩, ?_⟩
    rw [made_eq, spans'.eq spans (fun _ => Iff.rfl) called]

theorem nodup_ofMappings : (ofMappings mappings).Nodup := by
  refine (List.mergeSort_perm _ _).nodup_iff.mpr
    (List.Nodup.filterMap (fun path path' image made made' => ?_) (nodup_eraseDups _))
  exact (spans_of_ofPath? made).1.symm.trans (spans_of_ofPath? made').1

/-- No file has two images. -/
theorem nodup_paths : ((ofMappings mappings).map ImageModule.path).Nodup :=
  nodup_ofMappings.map_on fun _ here _ there same => eq_of_path_eq there here same

theorem mem_paths_iff :
    path ∈ (ofMappings mappings).map ImageModule.path <-> Executed mappings path := by
  constructor
  · intro member
    rcases List.mem_map.mp member with ⟨image, among, rfl⟩
    exact (mem_ofMappings_iff.mp among).1
  · intro executed
    have runs := mem_executablePaths.mpr executed
    rcases executed with ⟨mapping, member, file, -, named⟩
    rcases exists_ofPath? member file named with ⟨made, made_eq⟩
    exact List.mem_map.mpr ⟨made, mem_ofMappings.mpr ⟨path, runs, made_eq⟩,
      (spans_of_ofPath? made_eq).1⟩

/-! ## The order of the images -/

theorem precedes_iff :
    precedes image other = true <->
      image.base < other.base ∨ image.base = other.base ∧ image.path ≤ other.path := by
  simp [precedes]

theorem precedes_trans (left middle right : ImageModule) (first : precedes left middle = true)
    (second : precedes middle right = true) : precedes left right = true := by
  rw [precedes_iff] at first second ⊢
  rcases first with below | ⟨level, path⟩
  · rcases second with below' | ⟨level', -⟩
    · exact Or.inl (UInt64.lt_trans below below')
    · exact Or.inl (level' ▸ below)
  · rcases second with below' | ⟨level', path'⟩
    · exact Or.inl (level ▸ below')
    · exact Or.inr ⟨level.trans level', String.le_trans path path'⟩

theorem precedes_total (left right : ImageModule) :
    (precedes left right || precedes right left) = true := by
  rw [Bool.or_eq_true, precedes_iff, precedes_iff]
  rcases Nat.lt_trichotomy left.base.toNat right.base.toNat with below | level | above
  · exact Or.inl (Or.inl (UInt64.lt_iff_toNat_lt.mpr below))
  · have same := UInt64.toNat_inj.mp level
    exact (String.le_total left.path right.path).imp (fun path => Or.inr ⟨same, path⟩)
      fun path => Or.inr ⟨same.symm, path⟩
  · exact Or.inr (Or.inl (UInt64.lt_iff_toNat_lt.mpr above))

/-- Images come by rising base, and those of equal base by rising path. -/
theorem pairwise_ofMappings :
    (ofMappings mappings).Pairwise fun image later =>
      image.base < later.base ∨ image.base = later.base ∧ image.path < later.path := by
  have sorted := List.pairwise_mergeSort precedes_trans precedes_total
    ((executablePaths mappings).eraseDups.filterMap (ofPath? mappings))
  have distinct := List.pairwise_map.mp (@nodup_paths mappings)
  refine (distinct.and sorted).imp fun {image later} both => ?_
  refine (precedes_iff.mp both.2).imp_right fun level => ⟨level.1, ?_⟩
  exact String.not_le.mp fun back => both.1 (String.le_antisymm level.2 back)

/-- The images depend on which mappings there are, and on nothing else. -/
theorem ofMappings_congr (same : forall mapping, mapping ∈ others <-> mapping ∈ mappings) :
    ofMappings others = ofMappings mappings := by
  have members : forall image, image ∈ ofMappings others <-> image ∈ ofMappings mappings := by
    intro image
    have own : forall mapping, mapping ∈ mappingsOf image.path others <->
        mapping ∈ mappingsOf image.path mappings := fun mapping => by
      rw [mem_mappingsOf, mem_mappingsOf, same]
    rw [mem_ofMappings_iff, mem_ofMappings_iff]
    exact and_congr (exists_congr fun mapping => and_congr_left' (same mapping))
      ⟨fun spans => spans.of_mem_iff fun mapping => (own mapping).symm,
        fun spans => spans.of_mem_iff own⟩
  have apart : Std.Asymm fun image later : ImageModule =>
      image.base < later.base ∨ image.base = later.base ∧ image.path < later.path := by
    refine ⟨fun image later less more => ?_⟩
    rcases less with below | ⟨level, path⟩
    · rcases more with above | ⟨level, -⟩
      · exact UInt64.lt_asymm below above
      · exact UInt64.lt_irrefl _ (level ▸ below)
    · rcases more with above | ⟨-, path'⟩
      · exact UInt64.lt_irrefl _ (level ▸ above)
      · exact String.lt_asymm path path'
  exact pairwise_ofMappings.eq_of_mem_iff pairwise_ofMappings members

end ImageModule

/-! ## The listing of the images -/

theorem Mapping.le_of_range? {column : List Char} {start stop : Word}
    (read : range? column = some (start, stop)) : start ≤ stop := by
  unfold range? at read
  rcases Option.bind_eq_some_iff.mp read with ⟨sides, -, first⟩
  rcases Option.bind_eq_some_iff.mp first with ⟨lower, -, second⟩
  rcases Option.bind_eq_some_iff.mp second with ⟨upper, -, range⟩
  split at range
  · rename_i order
    cases range
    exact order
  · contradiction

/-- A mapping that is read from a line does not end before it starts, and what it allows is
what a column says. -/
theorem Mapping.parts_of_ofLine {line : List Char} {mapping : Mapping}
    (read : ofLine line = .ok mapping) : mapping.start ≤ mapping.stop ∧
      ∃ permissions, mapping.protection = Protection.ofColumn permissions := by
  unfold ofLine at read
  split at read
  · rename_i made columns
    cases read
    unfold ofColumns? at columns
    split at columns
    · rcases Option.bind_eq_some_iff.mp columns with ⟨⟨start, stop⟩, range, numbers⟩
      rcases Option.bind_eq_some_iff.mp numbers with ⟨offset, -, last⟩
      rcases Option.bind_eq_some_iff.mp last with ⟨inode, -, rest⟩
      cases rest
      exact ⟨le_of_range? range, _, rfl⟩
    · contradiction
  · contradiction

theorem Mapping.rising_of_ofListing {text : List Char} {mappings : List Mapping}
    (read : ofListing text = .ok mappings) :
    forall mapping, mapping ∈ mappings -> mapping.start ≤ mapping.stop := by
  intro mapping member
  rcases exists_entry_of_mapM read member with ⟨line, -, known⟩
  exact (parts_of_ofLine known).1

/-- A listing says nothing of guarded pages, so what may be read can be read. -/
theorem Mapping.canRead_of_ofListing {text : List Char} {mappings : List Mapping}
    (read : ofListing text = .ok mappings) {mapping : Mapping} (member : mapping ∈ mappings) :
    mapping.protection.canRead = mapping.protection.read := by
  rcases exists_entry_of_mapM read member with ⟨line, -, known⟩
  rcases (parts_of_ofLine known).2 with ⟨permissions, same⟩
  rw [same, Protection.canRead]
  exact Bool.and_true _

/-- The images of a process are listed with the differences of their ends as sizes. -/
theorem Machine.exists_modules {machine : Machine} {pid : UInt32} {process : LiveProcess}
    (opened : LiveProcess.openOn machine pid = .ok process) :
    ∃ entries, machine.modules pid = .ok entries ∧
      List.Forall₂ ModuleEntry.Shows process.images entries := by
  rcases LiveProcess.openOn_eq_ok_iff.mp opened with ⟨listing, mappings, -, parsed, rfl⟩
  refine ⟨_, by rw [modules, opened]; rfl, ?_⟩
  refine List.forall₂_map_right_iff.mpr (List.forall₂_same.mpr fun image member => ?_)
  have spans := (ImageModule.mem_ofMappings_iff.mp member).2
  have order := spans.base_le_stop fun mapping among =>
    Mapping.rising_of_ofListing parsed mapping (ImageModule.mem_mappingsOf.mp among).1
  refine ⟨rfl, rfl, rfl, Word.difference_eq_ok_iff.mpr ?_⟩
  rw [UInt64.toNat_sub_of_le _ _ order]
  have less := UInt64.le_iff_toNat_le.mp order
  omega

namespace ImageModule

/-- The images of mappings that do not end before they start.  A file that is executed has
exactly one, and no other file has any.  Each image reaches from the least start to the greatest
end of all mappings of its file, so it does not end before its base.  The images come by rising
base, and those of equal base by rising path, in whatever order the mappings are listed.  So
listing the images of a process takes no difference that would be negative. -/
theorem images_span_files {mappings : List Mapping}
    (rising : forall mapping, mapping ∈ mappings -> mapping.start ≤ mapping.stop) :
    (forall path, Executed mappings path ->
      ((ofMappings mappings).map ImageModule.path).count path = 1) ∧
    (forall path, ¬Executed mappings path ->
      ((ofMappings mappings).map ImageModule.path).count path = 0) ∧
    (forall image, image ∈ ofMappings mappings ->
      image.Spans (mappingsOf image.path mappings) ∧ image.base ≤ image.stop) ∧
    ((ofMappings mappings).Pairwise fun image later =>
      image.base < later.base ∨ image.base = later.base ∧ image.path < later.path) ∧
    (forall others : List Mapping, others.Perm mappings ->
      ofMappings others = ofMappings mappings) ∧
    forall (machine : Machine) (pid : UInt32) (process : LiveProcess),
      LiveProcess.openOn machine pid = .ok process ->
      ∃ entries, machine.modules pid = .ok entries ∧
        List.Forall₂ ModuleEntry.Shows process.images entries := by
  refine ⟨fun path executed => ?_, fun path idle => ?_, fun image member => ?_,
    pairwise_ofMappings, fun others perm => ?_, fun machine pid process opened => ?_⟩
  · exact List.count_eq_one_of_mem nodup_paths (mem_paths_iff.mpr executed)
  · exact List.count_eq_zero.mpr fun member => idle (mem_paths_iff.mp member)
  · have spans := (mem_ofMappings_iff.mp member).2
    exact ⟨spans, spans.base_le_stop fun mapping among =>
      rising mapping (mem_mappingsOf.mp among).1⟩
  · exact ofMappings_congr fun mapping => perm.mem_iff
  · exact Machine.exists_modules opened

/-- Overlapping mappings out of order: two executed files that begin at one address, one of them
also with a mapping without an inode, and a file that is not executed. -/
def levelMappings : List Mapping :=
  [⟨5, 6, { read := true }, 0, 4, some "/b"⟩,
    ⟨2, 9, { read := true, execute := true }, 0, 4, some "/b"⟩,
    ⟨1, 2, { read := true }, 0, 0, some "/a"⟩,
    ⟨2, 3, { read := true, execute := true }, 0, 5, some "/a"⟩,
    ⟨7, 8, { read := true }, 0, 6, some "/c"⟩]

/-- Each executed file has one image, the first mapping without an inode belongs to none, and the
reversed listing gives the same. -/
theorem images_span_files_of_level :
    ((ofMappings levelMappings).map ImageModule.path).count "/a" = 1 ∧
    ((ofMappings levelMappings).map ImageModule.path).count "/c" = 0 ∧
    (⟨2, 3, "/a"⟩ : ImageModule).Spans (mappingsOf "/a" levelMappings) ∧
    ofMappings levelMappings.reverse = ofMappings levelMappings := by
  have rising : forall mapping, mapping ∈ levelMappings -> mapping.start ≤ mapping.stop := by
    decide
  have listed : ofMappings levelMappings = [⟨2, 3, "/a"⟩, ⟨2, 9, "/b"⟩] := by cbv
  rcases images_span_files rising with ⟨one, none, spans, -, sorted, -⟩
  have executed : Executed levelMappings "/a" :=
    ⟨⟨2, 3, { read := true, execute := true }, 0, 5, some "/a"⟩, by decide, by cbv, by cbv, rfl⟩
  have idle : ¬Executed levelMappings "/c" := by
    intro executed
    have runs := mem_executablePaths.mpr executed
    have paths : executablePaths levelMappings = ["/b", "/a"] := by cbv
    rw [paths] at runs
    exact absurd runs (by decide)
  exact ⟨one _ executed, none _ idle, (spans ⟨2, 3, "/a"⟩ (listed ▸ List.mem_cons_self)).1,
    sorted _ (List.reverse_perm _)⟩

end ImageModule

end MemoryProbe
