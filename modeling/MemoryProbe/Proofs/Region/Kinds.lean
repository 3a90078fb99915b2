import MemoryProbe.Proofs.Region.Images

namespace MemoryProbe

/-!
Which regions are regions of images.  The images of a process are made from the mappings
that map files, but a region finds its image by the path of its mapping alone.  A mapping
without an inode can have the path of an executed file, as a shared memory segment has; its
region is then given to the image, which was made without it and need not reach over it.
The regions of mappings that map files lie in their images.
-/

/-- A region is a part of an image, and of the allocation that the image begins. -/
structure Region.LiesIn (region : Region) (image : ImageModule) : Prop where
  base_eq : region.allocationBase = ⟨image.base⟩
  base_le : region.allocationBase ≤ region.base
  end_le : region.base.toNat + region.size.toNat ≤ image.stop.toNat

namespace Mapping

variable {mappings : List Mapping} {mapping : Mapping}

/-- Only a mapping with a path is executed. -/
theorem exists_path_of_isExecuted (executed : mapping.isExecuted mappings = true) :
    ∃ other path, other ∈ mappings ∧ other.isFileBacked = true ∧
      other.path = some path ∧ mapping.path = some path := by
  rcases List.any_eq_true.mp executed with ⟨other, member, passes⟩
  rcases Bool.and_eq_true_iff.mp passes with ⟨runs, same⟩
  have file := (Bool.and_eq_true_iff.mp runs).1
  rcases exists_path file with ⟨path, named⟩
  exact ⟨other, path, member, file, named, (beq_iff_eq.mp same).symm.trans named⟩

/-- A mapping with an inode maps a file if its path is that of one. -/
theorem isFileBacked_of_path_eq {other : Mapping} (file : other.isFileBacked = true)
    (same : mapping.path = other.path) (numbered : mapping.inode ≠ 0) :
    mapping.isFileBacked = true := by
  unfold isFileBacked at file ⊢
  rw [same, (Bool.and_eq_true_iff.mp file).2, Bool.and_true]
  exact bne_iff_ne.mpr numbered

/-- The region of a mapping belongs to an image exactly if the path of the mapping is that
of an executed file. -/
theorem kind_eq_image_iff :
    (mapping.region (ImageModule.ofMappings mappings)).kind = .image <->
      mapping.isExecuted mappings = true := by
  constructor
  · intro kind
    by_contra idle
    have none : mapping.image? (ImageModule.ofMappings mappings) = none := by
      cases named : mapping.path with
      | none =>
          rw [image?, named]
          rfl
      | some path => exact image?_eq_none (Bool.eq_false_iff.mpr idle) named
    rw [region_of_no_image none] at kind
    split at kind <;> contradiction
  · intro executed
    rcases exists_path_of_isExecuted executed with ⟨-, path, -, -, -, named⟩
    rcases exists_image named ((isExecuted_iff named).mp executed) with ⟨image, found, -⟩
    exact (region_of_image found).1

variable {images : List ImageModule}

theorem image?_eq_none_iff :
    mapping.image? images = none <->
      forall image, image ∈ images -> mapping.path ≠ some image.path := by
  unfold image?
  cases mapping.path with
  | none => simp
  | some path =>
      rw [Option.bind_some, List.find?_eq_none]
      refine forall₂_congr fun image _ => ?_
      rw [beq_iff_eq, ne_eq, Option.some.injEq, eq_comm]

/-- The region of a mapping is private exactly if it maps no file and no image has its path. -/
theorem kind_eq_private_iff :
    (mapping.region images).kind = .privateMemory <->
      mapping.isFileBacked = false ∧
        forall image, image ∈ images -> mapping.path ≠ some image.path := by
  rw [<- image?_eq_none_iff]
  cases found : mapping.image? images with
  | some image =>
      rw [(region_of_image found).1]
      exact ⟨nofun, fun both => nomatch both.2⟩
  | none =>
      rw [region_of_no_image found]
      cases mapping.isFileBacked <;> simp

end Mapping

/-- A file has one image. -/
theorem ImageModule.eq_of_path_eq {mappings : List Mapping} {image other : ImageModule}
    (here : image ∈ ofMappings mappings) (there : other ∈ ofMappings mappings)
    (same : other.path = image.path) : other = image := by
  rcases mem_ofMappings.mp here with ⟨path, -, made⟩
  rcases mem_ofMappings.mp there with ⟨called, -, made'⟩
  rw [(hull_of_ofPath? made).1, (hull_of_ofPath? made').1] at same
  rw [same, made] at made'
  exact (Option.some.inj made').symm

namespace Mapping

variable {mappings : List Mapping}

/-- The regions of mappings, in whatever order they are listed, are those of the single
mappings.  The region of a mapping belongs to an image exactly if the path of the mapping is
that of an executed file; unless the mapping has no inode, it then maps that file.  The file
has one image, the hull of its mappings, at whose base the allocation of the region begins.
If the mapping maps the file, the region lies in the image. -/
theorem regions_find_images
    (rising : forall mapping, mapping ∈ mappings -> mapping.start ≤ mapping.stop) :
    (regions mappings (ImageModule.ofMappings mappings)).Perm
      (mappings.map (region (ImageModule.ofMappings mappings))) ∧
    forall mapping, mapping ∈ mappings ->
      ((mapping.region (ImageModule.ofMappings mappings)).kind = .image <->
        mapping.isExecuted mappings = true) ∧
      (mapping.isExecuted mappings = true ->
        (mapping.isFileBacked = true ∨ mapping.inode = 0) ∧
        ∃ image, image ∈ ImageModule.ofMappings mappings ∧ some image.path = mapping.path ∧
          (forall other, other ∈ ImageModule.ofMappings mappings ->
            other.path = image.path -> other = image) ∧
          image.Hull (ImageModule.mappingsOf image.path mappings) ∧
          (mapping.region (ImageModule.ofMappings mappings)).allocationBase = ⟨image.base⟩ ∧
          (mapping.isFileBacked = true ->
            (mapping.region (ImageModule.ofMappings mappings)).LiesIn image)) := by
  refine ⟨regions_perm mappings, fun mapping member => ⟨kind_eq_image_iff, fun executed => ?_⟩⟩
  rcases exists_path_of_isExecuted executed with ⟨other, path, -, file, called, named⟩
  rcases exists_image named ((isExecuted_iff named).mp executed) with
    ⟨image, found, among, rfl, hull⟩
  have base := (region_of_image found).2
  refine ⟨?_, image, among, named.symm,
    fun _ there same => ImageModule.eq_of_path_eq among there same, hull, base, fun own => ?_⟩
  · by_cases numbered : mapping.inode = 0
    · exact .inr numbered
    · exact .inl (isFileBacked_of_path_eq file (named.trans called.symm) numbered)
  · have part := ImageModule.mem_mappingsOf.mpr ⟨member, own, named⟩
    refine ⟨base, ?_, ?_⟩
    · rw [base, region_base]
      exact hull.base_le mapping part
    · rw [region_end (rising mapping member)]
      exact UInt64.le_iff_toNat_le.mp (hull.le_stop mapping part)

/-- The writable mapping behind another file lies in the image of its own file. -/
theorem regions_find_images_of_nested :
    (LiveProcess.tailMapping.region LiveProcess.nestedProcess.images).kind = .image ∧
    (LiveProcess.tailMapping.region LiveProcess.nestedProcess.images).LiesIn ⟨1, 6, "/a"⟩ := by
  have rising : forall mapping, mapping ∈ LiveProcess.nestedProcess.mappings ->
      mapping.start ≤ mapping.stop := by decide
  have file : LiveProcess.tailMapping.isFileBacked = true := by cbv
  have executed :
      LiveProcess.tailMapping.isExecuted LiveProcess.nestedProcess.mappings = true := by cbv
  have listed : ImageModule.ofMappings LiveProcess.nestedProcess.mappings =
      [⟨1, 6, "/a"⟩, ⟨3, 5, "/b"⟩] := by cbv
  rcases (regions_find_images rising).2 LiveProcess.tailMapping List.mem_cons_self with
    ⟨kind, images⟩
  rcases (images executed).2 with ⟨image, -, named, only, -, -, lies⟩
  have same := only ⟨1, 6, "/a"⟩ (by rw [listed]; exact List.mem_cons_self)
    (Option.some.inj named).symm
  exact ⟨kind.mpr executed, same ▸ lies file⟩

/-- Two shared memory segments, the first one executable; the number of the second one is
zero. -/
def segmentListing : List Char :=
  ("1000-2000 r-xs 0 0:1 5 /SYSV00000000 (deleted)\n"
    ++ "3000-4000 rw-s 0 0:1 0 /SYSV00000000 (deleted)\n").toList

def firstSegment : Mapping :=
  ⟨0x1000, 0x2000, { read := true, execute := true, shared := true }, 0, 5,
    some "/SYSV00000000 (deleted)"⟩

def secondSegment : Mapping :=
  ⟨0x3000, 0x4000, { read := true, write := true, shared := true }, 0, 0,
    some "/SYSV00000000 (deleted)"⟩

/-- The second segment maps no file, yet its region belongs to an image, the only one there
is, and lies above it. -/
theorem region_outside_image :
    ofListing segmentListing = .ok [firstSegment, secondSegment] ∧
    secondSegment.isFileBacked = false ∧
    (secondSegment.region (ImageModule.ofMappings [firstSegment, secondSegment])).kind = .image ∧
    forall image, image ∈ ImageModule.ofMappings [firstSegment, secondSegment] ->
      ¬(secondSegment.region
        (ImageModule.ofMappings [firstSegment, secondSegment])).LiesIn image := by
  have parsed : ofListing segmentListing = .ok [firstSegment, secondSegment] := by cbv
  have listed : ImageModule.ofMappings [firstSegment, secondSegment] =
      [⟨0x1000, 0x2000, "/SYSV00000000 (deleted)"⟩] := by cbv
  refine ⟨parsed, by cbv, by cbv, fun image member lies => ?_⟩
  rw [listed, List.mem_singleton] at member
  have inside := lies.end_le
  rw [member, region_end (by decide)] at inside
  exact absurd inside (by decide)

end Mapping

end MemoryProbe
