/-
  FilmCatalog.Artwork.Placement
  ─────────────────────────────
  **WHERE IMAGES ARE KEPT.**

  `assignPaths` gives every image that can be fetched its own file below a
  directory, with a subdirectory for each language but the one without a
  tag, and drops the other images.  `resolveUrls` makes relative addresses
  absolute.
-/
import FilmCatalog.Artwork.Basic
import FilmCatalog.Files.Path

namespace FilmCatalog

/-! ## §1. Extensions. -/

/-- The extension of a file whose kind is not known. -/
def defaultExtension : String := ".jpg"

/-- The extension of what an address leads to: in lower case, with its dot,
`.jpg` instead of `.jpeg` and where there is none. -/
def extensionOf (address : String) : String :=
  let path := match Address.parse? address with
    | some parsed => parsed.path
    | none => address
  match Path.extension? path with
  | none => defaultExtension
  | some extension =>
      let extension := "." ++ String.ofList (extension.toList.map Char.toLower)
      if extension = ".jpeg" then defaultExtension else extension

namespace Artwork

/-! ## §2. Places. -/

/-- The directory for a language. -/
def languageDirectory (directory tag : String) : String :=
  if tag = "" then directory else directory ++ "/" ++ tag

/-- The image with its place, if it can be fetched. -/
def place (directory name : String) (image : Image) : Option Image :=
  image.source.map fun address =>
    { image with path := directory ++ "/" ++ name ++ extensionOf address }

/-- The posters with their places. -/
def placePosters (directory : String) (p : PosterSet) : PosterSet :=
  ⟨p.small.bind (place directory "00-poster-0_small"),
    p.normal.bind (place directory "00-poster-1_normal"),
    p.large.bind (place directory "00-poster-2_large")⟩

/-- The name of a gallery image at an index. -/
def galleryName (index : Nat) : String := "02-gallery-" ++ Text.twoDigits index

/-- The gallery with its places, counted from `index`. -/
def placeGallery (directory : String) : Nat → List Image → List Image
  | _, [] => []
  | index, image :: rest =>
      match place directory (galleryName index) image with
      | some placed => placed :: placeGallery directory (index + 1) rest
      | .none => placeGallery directory index rest

/-- Gives every image that can be fetched its place below a directory, and
drops the others. -/
def assignPaths (directory : String) (a : Artwork) : Artwork where
  highlight := SortedMap.filterMap
    (fun tag image => place (languageDirectory directory tag) "01-highlight" image) a.highlight
  poster := SortedMap.filterMap
    (fun tag posters =>
      let placed := placePosters (languageDirectory directory tag) posters
      if placed.isEmpty then Option.none else some placed) a.poster
  gallery := placeGallery directory 0 a.gallery

/-! ## §3. Addresses. -/

/-- The image with its address resolved against a page, where that can be
done. -/
def resolveUrl (page : Address) (image : Image) : Image :=
  match image.source.bind page.join? with
  | some address => { image with url := some address.text }
  | .none => image

/-- Resolves all addresses against the page they came from. -/
def resolveUrls (page : Address) (a : Artwork) : Artwork where
  highlight := SortedMap.map (resolveUrl page) a.highlight
  poster := SortedMap.map
    (fun p =>
      ⟨p.small.map (resolveUrl page), p.normal.map (resolveUrl page),
        p.large.map (resolveUrl page)⟩) a.poster
  gallery := a.gallery.map (resolveUrl page)

end Artwork

end FilmCatalog
