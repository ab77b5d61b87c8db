/-
  FilmCatalog.Artwork.Basic
  ─────────────────────────
  **IMAGES OF A FILM.**

  An image has a path below the image directory and the address it came
  from; either may be missing.  A film has a highlight and a set of posters
  for each of some languages, and a gallery.

  In a document a single text stands for an image with a path or with an
  address.  Which of the two it is, is up to a test that tells remote
  addresses from paths, and the loaders are given that test.
-/
import FilmCatalog.Address.Parse
import FilmCatalog.Translated

namespace FilmCatalog

/-! ## §1. Images. -/

/-- An image by its file and the address it came from. -/
structure Image where
  /-- The path below the image directory; empty if there is no file yet. -/
  path : String
  url : Option String
  deriving DecidableEq, Repr

namespace Image

instance : Inhabited Image := ⟨⟨"", none⟩⟩

/-- The address the image came from, if one is known and not empty. -/
def source (i : Image) : Option String := i.url.filter (· ≠ "")

/-- Whether neither a path nor an address is known. -/
def isEmpty (i : Image) : Bool := i.path = "" && i.source.isNone

/-- Loads an image from a path or an address, or from both. -/
def load (isRemote : String → Bool) : Loader Image :=
  loadScalar "string or [path, url]" fun
    | .string text => if isRemote text then some ⟨"", some text⟩ else some ⟨text, none⟩
    | .array [.string path, .string url] => some ⟨path, if url = "" then none else some url⟩
    | _ => none

/-- An image as a path or an address, or as both. -/
def store (i : Image) : Json :=
  match i.url with
  | none => .string i.path
  | some url => if i.path = "" then .string url else .array [.string i.path, .string url]

end Image

/-! ## §2. Posters. -/

/-- A poster in up to three sizes. -/
structure PosterSet where
  small : Option Image
  normal : Option Image
  large : Option Image
  deriving DecidableEq, Repr

namespace PosterSet

/-- No poster. -/
def none : PosterSet := ⟨.none, .none, .none⟩

instance : Inhabited PosterSet := ⟨none⟩

/-- The images of a set, small ones first. -/
def images (p : PosterSet) : List Image := [p.small, p.normal, p.large].filterMap id

/-- Whether no size has an image with a path or an address. -/
def isEmpty (p : PosterSet) : Bool := p.images.all Image.isEmpty

/-- Keeps an image that is not empty. -/
def keepFilled (image : Option Image) : Option Image := image.filter fun i => !i.isEmpty

/-- The set without empty images. -/
def clearEmpty (p : PosterSet) : PosterSet :=
  ⟨keepFilled p.small, keepFilled p.normal, keepFilled p.large⟩

/-- Loads the three sizes one after the other. -/
def load (isRemote : String → Bool) : Loader PosterSet := fun old node =>
  withFields old node fun fields =>
    Loaded.done old .absent
      |>.andThen (fun p =>
        (loadOptional (Image.load isRemote) default fields "small" p.small).into
          fun small => { p with small })
      |>.andThen (fun p =>
        (loadOptional (Image.load isRemote) default fields "normal" p.normal).into
          fun normal => { p with normal })
      |>.andThen (fun p =>
        (loadOptional (Image.load isRemote) default fields "large" p.large).into
          fun large => { p with large })

/-- The sizes as an object. -/
def store (p : PosterSet) : Json :=
  storeFields
    [ ("small", storeOptional Image.store p.small),
      ("normal", storeOptional Image.store p.normal),
      ("large", storeOptional Image.store p.large) ]

end PosterSet

/-! ## §3. All images of a film. -/

/-- The images of a film. -/
structure Artwork where
  highlight : Translated Image
  poster : Translated PosterSet
  gallery : List Image
  deriving DecidableEq

namespace Artwork

/-- No images. -/
def none : Artwork := ⟨.empty, .empty, []⟩

instance : Inhabited Artwork := ⟨none⟩

/-- Whether there is no entry at all. -/
def isEmpty (a : Artwork) : Bool :=
  SortedMap.isEmpty a.highlight && SortedMap.isEmpty a.poster && a.gallery.isEmpty

/-- The images outside of the gallery: highlights, then posters. -/
def covers (a : Artwork) : List Image :=
  SortedMap.values a.highlight ++ (SortedMap.values a.poster).flatMap PosterSet.images

/-- All images: highlights, posters and the gallery. -/
def images (a : Artwork) : List Image := a.covers ++ a.gallery

/-- Loads the images of a film into an empty value. -/
def load (isRemote : String → Bool) : Loader Artwork := fun old node =>
  withFields old node fun fields =>
    Loaded.done none .absent
      |>.andThen (fun a =>
        (Translated.load (Image.load isRemote) default fields "highlight" a.highlight).into
          fun highlight => { a with highlight })
      |>.andThen (fun a =>
        (Translated.load (PosterSet.load isRemote) default fields "poster" a.poster).into
          fun poster => { a with poster })
      |>.andThen (fun a =>
        (loadField (loadList (Image.load isRemote) default) fields "gallery" a.gallery).into
          fun gallery => { a with gallery })

/-- The images of a document. -/
def ofJson (node : Json) : Loaded Artwork := load Address.isRemote none node

/-- The images of a film as an object. -/
def store (a : Artwork) : Json :=
  storeFields
    (Translated.stored Image.store "highlight" a.highlight
      ++ Translated.stored PosterSet.store "poster" a.poster
      ++ [("gallery", storeList Image.store a.gallery)])

end Artwork

end FilmCatalog
