import MemoryProbe.Proofs.Region.Mappings
import MemoryProbe.Proofs.Search.Grouping

namespace MemoryProbe

/-!
The images of a process.  An image is the hull of all mappings of its file, and mappings that
are filled and apart begin at different addresses, so the base of an image names its file and
no other.  Every module name that is printed for the region of a file is therefore the name
of that file.
-/

/-- An image reaches exactly over some mappings: it begins with the lowest of them and ends
behind all of them. -/
structure ImageModule.Hull (mappings : List Mapping) (image : ImageModule) : Prop where
  begins : ∃ lowest, lowest ∈ mappings ∧ lowest.start = image.base
  base_le : forall mapping, mapping ∈ mappings -> image.base ≤ mapping.start
  le_stop : forall mapping, mapping ∈ mappings -> mapping.stop ≤ image.stop

namespace ImageModule

variable {mappings : List Mapping} {image : ImageModule} {path : String}

theorem Hull.adjoin (hull : Hull mappings image) (mapping : Mapping) :
    Hull (mapping :: mappings) (image.adjoin mapping) := by
  have base : (image.adjoin mapping).base =
      if image.base ≤ mapping.start then image.base else mapping.start := rfl
  have stop : (image.adjoin mapping).stop =
      if image.stop ≤ mapping.stop then mapping.stop else image.stop := rfl
  rcases hull.begins with ⟨lowest, member, begins⟩
  constructor
  · rw [base]
    split
    · exact ⟨lowest, List.mem_cons_of_mem _ member, begins⟩
    · exact ⟨mapping, List.mem_cons_self, rfl⟩
  · intro other among
    have low : (image.adjoin mapping).base ≤ image.base ∧
        (image.adjoin mapping).base ≤ mapping.start := by
      rw [base]
      split
      · exact ⟨UInt64.le_refl _, ‹_›⟩
      · rename_i above
        exact ⟨UInt64.le_of_lt (UInt64.not_le.mp above), UInt64.le_refl _⟩
    rcases List.mem_cons.mp among with rfl | before
    · exact low.2
    · exact UInt64.le_trans low.1 (hull.base_le other before)
  · intro other among
    have high : image.stop ≤ (image.adjoin mapping).stop ∧
        mapping.stop ≤ (image.adjoin mapping).stop := by
      rw [stop]
      split
      · exact ⟨‹_›, UInt64.le_refl _⟩
      · rename_i below
        exact ⟨UInt64.le_refl _, UInt64.le_of_lt (UInt64.not_le.mp below)⟩
    rcases List.mem_cons.mp among with rfl | before
    · exact high.2
    · exact UInt64.le_trans (hull.le_stop other before) high.1

/-- Extending an image by mappings takes them into its hull. -/
theorem hull_foldl {rest : List Mapping} (hull : Hull mappings image) :
    Hull (rest.reverse ++ mappings) (rest.foldl adjoin image) ∧
      (rest.foldl adjoin image).path = image.path := by
  induction rest generalizing mappings image with
  | nil => exact ⟨hull, rfl⟩
  | cons mapping rest ih =>
      have further := ih (hull.adjoin mapping)
      rw [List.reverse_cons, List.append_assoc]
      exact further

theorem Hull.of_mem_iff {others : List Mapping} (hull : Hull mappings image)
    (same : forall mapping, mapping ∈ others <-> mapping ∈ mappings) : Hull others image := by
  rcases hull with ⟨⟨lowest, member, begins⟩, base_le, le_stop⟩
  exact ⟨⟨lowest, (same lowest).mpr member, begins⟩,
    fun mapping among => base_le mapping ((same mapping).mp among),
    fun mapping among => le_stop mapping ((same mapping).mp among)⟩

theorem mem_mappingsOf {mapping : Mapping} :
    mapping ∈ mappingsOf path mappings <->
      mapping ∈ mappings ∧ mapping.isFileBacked = true ∧ mapping.path = some path := by
  unfold mappingsOf
  rw [List.mem_filter, Bool.and_eq_true, beq_iff_eq]

theorem mem_executablePaths :
    path ∈ executablePaths mappings <-> ∃ mapping, mapping ∈ mappings ∧
      mapping.isFileBacked = true ∧ mapping.protection.canExecute = true ∧
      mapping.path = some path := by
  unfold executablePaths
  rw [List.mem_filterMap]
  refine exists_congr fun mapping => and_congr_right fun _ => ?_
  split
  · rename_i runs
    have both := Bool.and_eq_true_iff.mp runs
    exact ⟨fun named => ⟨both.1, both.2, named⟩, fun all => all.2.2⟩
  · rename_i idle
    refine ⟨fun named => (nomatch named), fun all => absurd ?_ idle⟩
    rw [all.1, all.2.1]
    rfl

/-- The image of a file is the hull of its mappings. -/
theorem hull_of_ofPath? (made : ofPath? mappings path = some image) :
    image.path = path ∧ Hull (mappingsOf path mappings) image := by
  unfold ofPath? at made
  split at made
  · contradiction
  · rename_i first rest listed
    cases made
    have one : Hull [first] ⟨first.start, first.stop, path⟩ := by
      refine ⟨⟨first, List.mem_singleton_self _, rfl⟩, fun mapping among => ?_,
        fun mapping among => ?_⟩
      · rw [List.mem_singleton.mp among]
        exact UInt64.le_refl _
      · rw [List.mem_singleton.mp among]
        exact UInt64.le_refl _
    rcases @hull_foldl _ _ rest one with ⟨hull, same⟩
    refine ⟨same, hull.of_mem_iff fun mapping => ?_⟩
    rw [listed, List.mem_append, List.mem_reverse, List.mem_cons, List.mem_singleton, or_comm]

theorem exists_ofPath? {mapping : Mapping} (member : mapping ∈ mappings)
    (file : mapping.isFileBacked = true) (named : mapping.path = some path) :
    ∃ image, ofPath? mappings path = some image := by
  have among := mem_mappingsOf.mpr ⟨member, file, named⟩
  unfold ofPath?
  split
  · rename_i none
    rw [none] at among
    exact absurd among List.not_mem_nil
  · exact ⟨_, rfl⟩

theorem mem_ofMappings : image ∈ ofMappings mappings <->
    ∃ path, path ∈ executablePaths mappings ∧ ofPath? mappings path = some image := by
  unfold ofMappings
  rw [List.mem_mergeSort, List.mem_filterMap]
  simp only [List.mem_eraseDups]

/-- The base of an image is where a mapping of its file begins. -/
theorem exists_mapping_of_mem (member : image ∈ ofMappings mappings) :
    ∃ mapping, mapping ∈ mappings ∧ mapping.isFileBacked = true ∧
      mapping.path = some image.path ∧ mapping.start = image.base := by
  rcases mem_ofMappings.mp member with ⟨path, -, made⟩
  rcases hull_of_ofPath? made with ⟨rfl, hull⟩
  rcases hull.begins with ⟨lowest, among, begins⟩
  rcases mem_mappingsOf.mp among with ⟨there, file, named⟩
  exact ⟨lowest, there, file, named, begins⟩

/-- Where an image passes a test, the first one found passes it too. -/
theorem exists_found {images : List ImageModule} {test : ImageModule -> Bool}
    (member : image ∈ images) (passes : test image = true) :
    ∃ found, images.find? test = some found ∧ found ∈ images ∧ test found = true := by
  have some : (images.find? test).isSome = true := List.find?_isSome.mpr ⟨image, member, passes⟩
  rcases Option.isSome_iff_exists.mp some with ⟨found, first⟩
  exact ⟨found, first, List.mem_of_find?_eq_some first, List.find?_some first⟩

end ImageModule

namespace Mapping

variable {mappings : List Mapping} {mapping other : Mapping} {image : ImageModule}
  {images : List ImageModule}

/-- Whether some mapping of the same file lets it execute. -/
def isExecuted (mappings : List Mapping) (mapping : Mapping) : Bool :=
  mappings.any fun other =>
    other.isFileBacked && other.protection.canExecute && other.path == mapping.path

/-- The file of a mapping, if it is loaded as an image. -/
def moduleFile? (mappings : List Mapping) (mapping : Mapping) : Option String :=
  if mapping.isExecuted mappings then mapping.path else none

theorem isExecuted_iff {path : String} (named : mapping.path = some path) :
    mapping.isExecuted mappings = true <-> path ∈ ImageModule.executablePaths mappings := by
  unfold isExecuted
  rw [ImageModule.mem_executablePaths, List.any_eq_true, named]
  refine exists_congr fun other => and_congr_right fun _ => ?_
  rw [Bool.and_eq_true, Bool.and_eq_true, beq_iff_eq, and_assoc]

/-- A mapping of a file has a path. -/
theorem exists_path (file : mapping.isFileBacked = true) : ∃ path, mapping.path = some path := by
  unfold isFileBacked at file
  cases named : mapping.path with
  | none =>
      rw [named, Option.any_none, Bool.and_false] at file
      contradiction
  | some path => exact ⟨path, rfl⟩

instance : Std.Symm Apart :=
  ⟨fun _ _ either => either.symm⟩

/-- Of filled mappings that are apart, no two begin at the same address. -/
theorem eq_of_start_eq
    (filled : forall mapping, mapping ∈ mappings -> mapping.start < mapping.stop)
    (apart : mappings.Pairwise Apart) (here : mapping ∈ mappings) (there : other ∈ mappings)
    (same : mapping.start = other.start) : mapping = other := by
  by_contra different
  have lies : mapping.Apart other := apart.forall here there different
  have less := UInt64.lt_iff_toNat_lt.mp (filled mapping here)
  have more := UInt64.lt_iff_toNat_lt.mp (filled other there)
  rw [Apart, UInt64.le_iff_toNat_le, UInt64.le_iff_toNat_le, same] at lies
  rw [same] at less
  omega

/-- The region of a mapping whose path is that of an image belongs to the image. -/
theorem region_of_image (found : mapping.image? images = some image) :
    (mapping.region images).kind = .image ∧
      (mapping.region images).allocationBase = ⟨image.base⟩ := by
  simp only [region, found]
  split <;> exact ⟨rfl, rfl⟩

/-- A region without an image is that of a file, or private. -/
theorem region_of_no_image (none : mapping.image? images = none) :
    (mapping.region images).kind =
      if mapping.isFileBacked then .mapped else .privateMemory := by
  simp only [region, none]
  split <;> split <;> rfl

/-- The image whose file has the path of a mapping is the hull of the mappings of that
file. -/
theorem exists_image {path : String} (named : mapping.path = some path)
    (runs : path ∈ ImageModule.executablePaths mappings) :
    ∃ image, mapping.image? (ImageModule.ofMappings mappings) = some image ∧
      image ∈ ImageModule.ofMappings mappings ∧ image.path = path ∧
      image.Hull (ImageModule.mappingsOf path mappings) := by
  rcases ImageModule.mem_executablePaths.mp runs with ⟨other, member, file, -, called⟩
  rcases ImageModule.exists_ofPath? member file called with ⟨made, made_eq⟩
  have listed := ImageModule.mem_ofMappings.mpr ⟨path, runs, made_eq⟩
  have same := (ImageModule.hull_of_ofPath? made_eq).1
  rcases @ImageModule.exists_found made _ (fun image => image.path == path) listed
    (beq_iff_eq.mpr same) with ⟨image, found, among, passes⟩
  have equal : image.path = path := beq_iff_eq.mp passes
  rcases ImageModule.mem_ofMappings.mp among with ⟨other, -, other_eq⟩
  rcases ImageModule.hull_of_ofPath? other_eq with ⟨rfl, hull⟩
  refine ⟨image, ?_, among, equal, equal ▸ hull⟩
  unfold image?
  rw [named]
  exact found

/-- The mapping of a file that no mapping lets execute has no image. -/
theorem image?_eq_none (idle : mapping.isExecuted mappings = false)
    {path : String} (named : mapping.path = some path) :
    mapping.image? (ImageModule.ofMappings mappings) = none := by
  unfold image?
  rw [named]
  refine List.find?_eq_none.mpr fun image member same => ?_
  rcases ImageModule.mem_ofMappings.mp member with ⟨other, runs, made⟩
  have path_eq := (ImageModule.hull_of_ofPath? made).1.symm.trans (beq_iff_eq.mp same)
  rw [path_eq] at runs
  rw [(isExecuted_iff named).mpr runs] at idle
  contradiction

end Mapping

/-- Images of filled mappings that are apart have the same base only if they have the same
file. -/
theorem ImageModule.path_eq_of_base_eq {mappings : List Mapping} {image other : ImageModule}
    (filled : forall mapping, mapping ∈ mappings -> mapping.start < mapping.stop)
    (apart : mappings.Pairwise Mapping.Apart) (here : image ∈ ofMappings mappings)
    (there : other ∈ ofMappings mappings) (same : image.base = other.base) :
    image.path = other.path := by
  rcases exists_mapping_of_mem here with ⟨first, member, -, named, begins⟩
  rcases exists_mapping_of_mem there with ⟨second, among, -, called, starts⟩
  have one : first = second :=
    Mapping.eq_of_start_eq filled apart member among ((begins.trans same).trans starts.symm)
  rw [one] at named
  exact Option.some.inj (named.symm.trans called)

/-- A region of a process belongs to the image of the file of a mapping. -/
structure LiveProcess.Loads (process : LiveProcess) (mapping : Mapping) (region : Region) :
    Prop where
  kind_eq : region.kind = .image
  /-- The allocation begins with a mapping of the file. -/
  begins : ∃ lowest, lowest ∈ process.mappings ∧ lowest.isFileBacked = true ∧
    lowest.path = mapping.path ∧ region.allocationBase = ⟨lowest.start⟩
  least : forall other, other ∈ process.mappings -> other.isFileBacked = true ->
    other.path = mapping.path -> region.allocationBase ≤ ⟨other.start⟩
  /-- The image reaches over the mapping. -/
  inside : ∃ image, image ∈ process.images ∧ some image.path = mapping.path ∧
    region.allocationBase = ⟨image.base⟩ ∧ image.base ≤ mapping.start ∧
    mapping.stop ≤ image.stop
  /-- The base of the allocation leads back to the file. -/
  path_eq : process.modulePath region.allocationBase = mapping.path
  only : forall image, image ∈ process.images -> region.allocationBase = ⟨image.base⟩ ->
    some image.path = mapping.path

namespace LiveProcess

variable {pid : UInt32} {mappings : List Mapping} {mapping : Mapping} {image : ImageModule}

/-- The file at the base of an image is that of the image. -/
theorem modulePath_base
    (filled : forall mapping, mapping ∈ mappings -> mapping.start < mapping.stop)
    (apart : mappings.Pairwise Mapping.Apart)
    (member : image ∈ ImageModule.ofMappings mappings) :
    (ofMappings pid mappings).modulePath ⟨image.base⟩ = some image.path := by
  rcases @ImageModule.exists_found image _ (fun other => other.base == image.base) member
    (beq_self_eq_true _) with ⟨other, found, among, passes⟩
  have same : other.base = image.base := beq_iff_eq.mp passes
  have path := ImageModule.path_eq_of_base_eq filled apart among member same
  unfold modulePath
  rw [<- path]
  exact congrArg _ found

/-- The region of a mapping of an executed file belongs to the image of that file. -/
theorem loads_of_isExecuted
    (filled : forall mapping, mapping ∈ mappings -> mapping.start < mapping.stop)
    (apart : mappings.Pairwise Mapping.Apart) (member : mapping ∈ mappings)
    (file : mapping.isFileBacked = true) (executed : mapping.isExecuted mappings = true) :
    (ofMappings pid mappings).Loads mapping
      (mapping.region (ImageModule.ofMappings mappings)) := by
  rcases Mapping.exists_path file with ⟨path, named⟩
  rcases Mapping.exists_image named
    ((Mapping.isExecuted_iff named).mp executed) with ⟨image, found, among, rfl, hull⟩
  rcases Mapping.region_of_image found with ⟨kind, base⟩
  rcases hull.begins with ⟨lowest, there, begins⟩
  rcases ImageModule.mem_mappingsOf.mp there with ⟨listed, backed, called⟩
  have own := ImageModule.mem_mappingsOf.mpr ⟨member, file, named⟩
  constructor
  · exact kind
  · exact ⟨lowest, listed, backed, called.trans named.symm, by rw [base, begins]⟩
  · intro other present file' same
    rw [base]
    exact hull.base_le other
      (ImageModule.mem_mappingsOf.mpr ⟨present, file', same.trans named⟩)
  · exact ⟨image, among, named.symm, base, hull.base_le mapping own, hull.le_stop mapping own⟩
  · rw [base, named]
    exact modulePath_base filled apart among
  · intro other present same
    rw [base] at same
    have equal : image.base = other.base := congrArg Address.value same
    rw [named, ImageModule.path_eq_of_base_eq filled apart among present equal]

/-- The module of the region of a file is that file, if the file is loaded as an image;
otherwise the region has no module. -/
theorem regionModule_eq {machine : Machine}
    (filled : forall mapping, mapping ∈ mappings -> mapping.start < mapping.stop)
    (apart : mappings.Pairwise Mapping.Apart) (member : mapping ∈ mappings)
    (file : mapping.isFileBacked = true) :
    ((ofMappings pid mappings).target machine).regionModule
        (mapping.region (ImageModule.ofMappings mappings)) =
      mapping.moduleFile? mappings := by
  rcases Mapping.exists_path file with ⟨path, named⟩
  unfold Target.regionModule Region.isImage Mapping.moduleFile?
  cases executed : mapping.isExecuted mappings with
  | true =>
      have loads := @loads_of_isExecuted pid _ _ filled apart member file executed
      rw [loads.kind_eq, if_pos rfl]
      exact loads.path_eq
  | false =>
      have kind := Mapping.region_of_no_image (Mapping.image?_eq_none executed named)
      rw [kind, file, if_neg (by decide), if_neg (by decide)]

/-- The images of a process whose mappings are filled and apart, in whatever order they are
listed.  The region of a mapping of an executed file belongs to the image of that file: its
allocation begins with the lowest mapping of the file, and the image reaches over the
region.  The base of the allocation leads back to the file, and to no other.  So every head
that a report prints for the region of a file names that file, or, if the file is not
executed, nothing; and so does every diagnostic. -/
theorem images_name_their_files {machine : Machine} {pid : UInt32} {process : LiveProcess}
    (opened : openOn machine pid = .ok process)
    (filled : forall mapping, mapping ∈ process.mappings -> mapping.start < mapping.stop)
    (apart : process.mappings.Pairwise Mapping.Apart) :
    process.regions.Perm (process.mappings.map (Mapping.region process.images)) ∧
    (forall mapping, mapping ∈ process.mappings -> mapping.isFileBacked = true ->
      (mapping.isExecuted process.mappings = true ->
        process.Loads mapping (mapping.region process.images)) ∧
      (process.target machine).regionModule (mapping.region process.images) =
        mapping.moduleFile? process.mappings ∧
      forall (reader : Reader) (failure : ReadFailure) (Cause : Type),
        reader.target = process.target machine ->
        (reader.skip (mapping.region process.images) failure : Run Cause Unit) =
          if reader.tellsFailures then
            failure.tell (mapping.region process.images) (mapping.moduleFile? process.mappings)
          else
            pure ()) ∧
    forall (Cause : Type) [OfIoError Cause] (report : MatchReport) (hits : List (List Address))
      (trace later : Trace) (summary : ReportSummary),
      report.target = process.target machine -> report.blocks.length = hits.length ->
      (report.write hits : Run Cause ReportSummary) trace = (.ok summary, later) ->
      summary.outcome = .listed ->
      ∃ parts : List ReportPart, later.out.text = trace.out.text ++
          (MatchReport.countLine hits.flatten.length ++
            (String.join (parts.map ReportPart.text) ++ "\n")) ∧
        forall mapping, mapping ∈ process.mappings -> mapping.isFileBacked = true ->
          forall index moduleName,
            .head index (mapping.region process.images) moduleName ∈ parts ->
            moduleName = mapping.moduleFile? process.mappings := by
  rcases openOn_eq_ok_iff.mp opened with ⟨listing, mappings, -, -, rfl⟩
  have module {mapping : Mapping} (member : mapping ∈ mappings)
      (file : mapping.isFileBacked = true) :
      ((ofMappings pid mappings).target machine).regionModule
        (mapping.region (ofMappings pid mappings).images) = mapping.moduleFile? mappings :=
    regionModule_eq filled apart member file
  refine ⟨Mapping.regions_perm mappings, fun mapping member file => ?_, ?_⟩
  · refine ⟨loads_of_isExecuted filled apart member file, module member file,
      fun reader failure Cause looks => ?_⟩
    unfold Reader.skip
    rw [looks, module member file]
    rfl
  · intro Cause _ report hits trace later summary looks paired ran listed
    refine ⟨_, MatchReport.text_of_listed paired ran listed,
      fun mapping member file index moduleName among => ?_⟩
    rw [(MatchReport.of_head_mem among).2.1, looks, module member file]
    rfl

/-- A listing, out of order, of two files of which one lies between the mappings of the
other.  Both begin with a mapping that does not execute. -/
def nestedListing : List Char :=
  ("5-6 rw-p 3 8:1 4 /a\n3-4 r--p 0 8:1 5 /b\n2-3 r-xp 1 8:1 4 /a\n"
    ++ "4-5 r-xp 1 8:1 5 /b\n1-2 r--p 0 8:1 4 /a\n").toList

/-- A machine that has that listing for every process. -/
def nestedMachine : Machine where
  readFile _ := .ok (Text.utf8Bytes nestedListing)
  listDirectory _ := .ok []
  readLink _ := .error .invalidText
  readMemory _ _ _ _ := .error 14

/-- The writable mapping behind the other file. -/
def tailMapping : Mapping :=
  ⟨5, 6, { read := true, write := true, copyOnWrite := true }, 3, 4, some "/a"⟩

def nestedProcess : LiveProcess :=
  ofMappings 7 [tailMapping,
    ⟨3, 4, { read := true }, 0, 5, some "/b"⟩,
    ⟨2, 3, { read := true, execute := true }, 1, 4, some "/a"⟩,
    ⟨4, 5, { read := true, execute := true }, 1, 5, some "/b"⟩,
    ⟨1, 2, { read := true }, 0, 4, some "/a"⟩]

theorem nestedMachine_opens : openOn nestedMachine 7 = .ok nestedProcess := by
  have read : nestedMachine.readText (Machine.mapsPath 7) = .ok nestedListing := by cbv
  have parsed : Mapping.ofListing nestedListing = .ok nestedProcess.mappings := by cbv
  exact openOn_eq_ok_iff.mpr ⟨_, _, read, parsed, rfl⟩

/-- The writable mapping of the outer file belongs to an image that begins far below it, and
the base of that image leads back to the file. -/
theorem images_name_their_files_of_nested :
    openOn nestedMachine 7 = .ok nestedProcess ∧
    (tailMapping.region nestedProcess.images).allocationBase = ⟨1⟩ ∧
    nestedProcess.modulePath (tailMapping.region nestedProcess.images).allocationBase =
      some "/a" := by
  have filled : forall mapping, mapping ∈ nestedProcess.mappings ->
      mapping.start < mapping.stop := by decide
  have apart : nestedProcess.mappings.Pairwise Mapping.Apart := by decide
  rcases images_name_their_files nestedMachine_opens filled apart with ⟨-, named, -⟩
  have file : tailMapping.isFileBacked = true := by cbv
  have executed : tailMapping.isExecuted nestedProcess.mappings = true := by cbv
  have loads := (named tailMapping List.mem_cons_self file).1 executed
  refine ⟨nestedMachine_opens, ?_, loads.path_eq⟩
  cbv

end LiveProcess

end MemoryProbe
