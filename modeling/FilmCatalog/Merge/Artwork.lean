/-
  FilmCatalog.Merge.Artwork
  ─────────────────────────
  **MERGING IMAGES.**

  Highlights and posters are merged by language; an image that can be
  fetched stays.  The gallery is built anew from addresses: incoming
  highlights that lost their place, then the stored gallery, then what the
  incoming gallery adds.  Every gallery image gets a file name by its new
  position, in the directory that the images share, and the merge plans the
  file operations that follow from that.
-/
import FilmCatalog.Artwork.Placement
import FilmCatalog.Merge.Weave

namespace FilmCatalog

/-! ## §1. Single images and posters. -/

/-- Merges two images: one that can be fetched stays. -/
def Image.merge (stored incoming : Image) : Merged Image :=
  if stored.source.isSome then .keep stored else .replace stored incoming

namespace PosterSet

/-- Merges the images of one size. -/
def mergeSize (stored incoming : Option Image) : Merged (Option Image) :=
  match stored, incoming with
  | some current, some fresh => (current.merge fresh).into some
  | .none, some fresh => .change (some fresh)
  | _, .none => .keep stored

/-- Merges two sets size by size. -/
def merge (stored incoming : PosterSet) : Merged PosterSet :=
  let small := mergeSize stored.small incoming.small
  let normal := mergeSize stored.normal incoming.normal
  let large := mergeSize stored.large incoming.large
  ⟨⟨small.value, normal.value, large.value⟩,
    (small.outcome.absorb normal.outcome).absorb large.outcome⟩

end PosterSet

/-! ## §2. File operations. -/

/-- What has to be done to a file after a merge. -/
inductive ImageOp where
  /-- A gallery file that no image refers to any more. -/
  | remove (path : String)
  /-- An image to be fetched. -/
  | fetch (url path : String)
  deriving DecidableEq, Repr

/-- The text of an operation. -/
def ImageOp.text : ImageOp → String
  | .remove path => "rm " ++ path
  | .fetch url path => "get " ++ url ++ " -> " ++ path

namespace Artwork

/-! ## §3. The directory of the gallery. -/

/-- What the paths have in common at their start.  Empty paths count only
after the first path that is not empty. -/
def sharedStart : List String → List Char
  | [] => []
  | path :: rest =>
      if path = "" then sharedStart rest
      else rest.foldl (fun shared other => Text.commonStart shared other.toList) path.toList

/-- A text without a slash at its end. -/
def dropSlash (text : List Char) : List Char :=
  if text.getLast? = some '/' then text.dropLast else text

/-- The directory that the paths share, with a slash at its end. -/
def sharedDirectory (paths : List String) : String :=
  let shared := sharedStart paths
  let directory := match Text.splitLast '/' shared with
    | some (before, _) => dropSlash before
    | .none => shared
  if directory = [] then "" else String.ofList (directory ++ ['/'])

/-- The extension that the file of a gallery image keeps. -/
def keptExtension (path : String) : String :=
  if path = "" then defaultExtension
  else match Path.extension? path with
    | some extension => "." ++ extension
    | .none => ""

/-! ## §4. The addresses of the gallery. -/

/-- The addresses of some images, each with the path of its image. -/
def sources (images : List Image) : List (String × String) :=
  images.filterMap fun image => image.source.map fun url => (url, image.path)

/-- Adds an address that is not listed yet. -/
def addSource (known : List (String × String)) (entry : String × String) :
    List (String × String) :=
  if known.any fun other => other.1 = entry.1 then known else known ++ [entry]

/-- Incoming highlights that are neither the highlight of their language
after the merge nor in the stored gallery. -/
def displaced (highlight : Translated Image) (gallery : List Image)
    (incoming : Translated Image) : List Image :=
  (incoming.entries.filter fun entry =>
    entry.2.source ≠ (SortedMap.get? highlight entry.1).bind Image.source
      && !gallery.any fun image => image.source = entry.2.source).map (·.2)

/-- What the gallery holds before the incoming gallery is added. -/
def galleryBase (highlight : Translated Image) (stored incoming : Artwork) :
    List (String × String) :=
  (sources (displaced highlight stored.gallery incoming.highlight ++ stored.gallery)).foldl
    addSource []

/-- The gallery of some addresses, counted from `index`. -/
def galleryOf (directory : String) (pathOf : String → String) : Nat → List String → List Image
  | _, [] => []
  | index, url :: rest =>
      ⟨directory ++ galleryName index ++ keptExtension (pathOf url), some url⟩
        :: galleryOf directory pathOf (index + 1) rest

/-! ## §5. The merge. -/

/-- The merged images without the gallery and without empty images. -/
def mergeCovers (highlight : Translated Image) (poster : Translated PosterSet) : Artwork where
  highlight := SortedMap.filter (fun _ image => !image.isEmpty) highlight
  poster := SortedMap.filter (fun _ posters => !posters.isEmpty)
    (SortedMap.map PosterSet.clearEmpty poster)
  gallery := []

/-- The images after a merge. -/
def mergeImages (stored incoming : Artwork) : Artwork :=
  let highlight := (Merged.languages Image.merge stored.highlight incoming.highlight).value
  let poster := (Merged.languages PosterSet.merge stored.poster incoming.poster).value
  let base := galleryBase highlight stored incoming
  let fresh := sources incoming.gallery
  let urls := WeaveRule.texts.mergeLists (base.map (·.1)) (fresh.map (·.1))
  let covers := mergeCovers highlight poster
  let directory := sharedDirectory ((covers.covers ++ stored.gallery).map Image.path)
  let pathOf := fun url => (Entries.get? url (base ++ fresh)).getD ""
  { covers with gallery := galleryOf directory pathOf 0 urls }

/-- The files of a gallery, in order and each once. -/
def galleryFiles (gallery : List Image) : List String :=
  (SortedMap.ofList ((gallery.filter fun image => image.path ≠ "").map
    fun image => (image.path, ()))).keys

/-- The gallery files that lose their image. -/
def unusedFiles (stored merged : List Image) : List String :=
  (galleryFiles stored).filter fun path => !merged.any fun image => image.path = path

/-- The images that have to be fetched. -/
def fetches (images : List Image) : List ImageOp :=
  images.filterMap fun image =>
    if image.path = "" then .none else image.source.map fun url => .fetch url image.path

/-- The file operations that follow from a merge. -/
def plan (stored merged : Artwork) : List ImageOp :=
  (unusedFiles stored.gallery merged.gallery).map .remove ++ fetches merged.images

/-- Merges the images of two records. -/
def merge (stored incoming : Artwork) : Merged Artwork :=
  .replace stored (mergeImages stored incoming)

end Artwork

end FilmCatalog
