import MemoryProbe.Kernel.Maps

namespace MemoryProbe

/-!
Loaded images and the region table of a process.  An image is a file with at
least one executable mapping; it reaches from the lowest to the highest end of
all mappings of that file.  Every mapping is a region, and one of an image is
part of the image's allocation.
-/

/-- A file loaded as an image. -/
structure ImageModule where
  base : Word
  stop : Word
  path : String
deriving DecidableEq, Repr

namespace ImageModule

/-- Extend an image by a mapping of its file. -/
def adjoin (image : ImageModule) (mapping : Mapping) : ImageModule :=
  { image with
    base := min image.base mapping.start
    stop := max image.stop mapping.stop }

/-- Images come by rising base, those of equal base by rising path. -/
def precedes (left right : ImageModule) : Bool :=
  left.base < right.base || (left.base == right.base && left.path ≤ right.path)

def executablePaths (mappings : List Mapping) : List String :=
  mappings.filterMap fun mapping =>
    if mapping.isFileBacked && mapping.protection.canExecute then
      mapping.path
    else
      none

/-- The mappings of one file. -/
def mappingsOf (path : String) (mappings : List Mapping) : List Mapping :=
  mappings.filter fun mapping => mapping.isFileBacked && mapping.path == some path

/-- The image of one file, if the file is mapped. -/
def ofPath? (mappings : List Mapping) (path : String) : Option ImageModule :=
  match mappingsOf path mappings with
  | [] => none
  | first :: rest => some (rest.foldl adjoin ⟨first.start, first.stop, path⟩)

def ofMappings (mappings : List Mapping) : List ImageModule :=
  ((executablePaths mappings).eraseDups.filterMap (ofPath? mappings)).mergeSort
    precedes

end ImageModule

namespace Mapping

/-- The image whose file has the path of this mapping. -/
def image? (mapping : Mapping) (images : List ImageModule) : Option ImageModule :=
  mapping.path.bind fun path => images.find? fun image => image.path == path

/-- The region of a mapping.  Mappings without any access are reserved. -/
def region (images : List ImageModule) (mapping : Mapping) : Region :=
  let base : Address := ⟨mapping.start⟩
  let plain := Region.committedPrivate base mapping.size mapping.protection
  let placed :=
    match mapping.image? images with
    | some image =>
      { plain with kind := .image, allocationBase := ⟨image.base⟩ }
    | none =>
      if mapping.isFileBacked then
        { plain with
          kind := .mapped
          allocationBase := ⟨Word.saturatingSub mapping.start mapping.offset⟩ }
      else
        plain
  if mapping.protection.anyAccess then
    placed
  else
    { placed with state := .reserved }

/-- The regions of some mappings by rising base; those of equal base keep the
order of the mappings. -/
def regions (mappings : List Mapping) (images : List ImageModule) : List Region :=
  (mappings.map (region images)).mergeSort fun left right =>
    decide (left.base ≤ right.base)

end Mapping

end MemoryProbe
