/-
  FilmCatalog.Record.Load
  ───────────────────────
  **RECORDS IN DOCUMENTS.**

  `load` reads a record field by field, in a fixed order, and repairs what
  older documents did differently.  `store` writes the fields that have
  something to say.
-/
import FilmCatalog.Record.Basic

namespace FilmCatalog.Record

/-! ## §1. Loading. -/

/-- Drops repeated tags, and notes it. -/
def repairTags (r : Record) : Loaded Record :=
  if r.hasRepeatedTag then .repaired r.dedupTags "Duplicate tags found" else .done r .absent

/-- Loads the lists and titles at the head of a record. -/
def loadHead (fields : Json.Fields) (r : Record) : Loaded Record :=
  Loaded.done r .unchanged
    |>.andThen (fun r =>
      (loadField loadTexts fields "refs" r.refs).into fun refs => { r with refs })
    |>.andThen (fun r =>
      (Translated.load Title.load default fields "title" r.title).into
        fun title => { r with title })
    |>.andThen (fun r => (Titles.loadLegacy fields r.title).into fun title => { r with title })
    |>.andThen (fun r =>
      (loadField loadTexts fields "genres" r.genres).into fun genres => { r with genres })
    |>.andThen (fun r =>
      (loadField loadTexts fields "countries" r.countries).into
        fun countries => { r with countries })
    |>.andThen (fun r => (loadTextsOrText fields "age" r.age).into fun age => { r with age })
    |>.andThen (fun r =>
      (loadField loadTexts fields "tags" r.tags).into fun tags => { r with tags })
    |>.andThen (fun r =>
      (loadField loadTexts fields "episodes" r.episodes).into
        fun episodes => { r with episodes })

/-- Loads the parts of a record that describe the film. -/
def loadBody (isRemote : String → Bool) (fields : Json.Fields) (r : Record) : Loaded Record :=
  Loaded.done r .unchanged
    |>.andThen (fun r => (Crew.loadFromRecord fields r.crew).into fun crew => { r with crew })
    |>.andThen (fun r =>
      (Translated.load loadText "" fields "tagline" r.tagline).into
        fun tagline => { r with tagline })
    |>.andThen (fun r =>
      (Translated.load loadText "" fields "summary" r.summary).into
        fun summary => { r with summary })
    |>.andThen (fun r =>
      (loadField (Artwork.load isRemote) fields "image" r.image).into
        fun image => { r with image })
    |>.andThen (fun r =>
      (loadField Dates.load fields "dates" r.dates).into fun dates => { r with dates })
    |>.andThen (fun r =>
      (loadOptional loadUInt32 0 fields "year" r.year).into fun year => { r with year })
    |>.andThen (fun r =>
      (loadOptional loadUInt32 0 fields "runtime" r.runtime).into
        fun runtime => { r with runtime })
    |>.andThen (fun r =>
      (loadOptional loadUInt32 0 fields "rating" r.rating).into fun rating => { r with rating })
    |>.andThen (fun r =>
      (loadField Playback.load fields "video" r.video).into fun video => { r with video })

/-- Repairs what only shows when all fields are known. -/
def repair (r : Record) : Loaded Record :=
  ((Titles.dropUnneededOriginal r.title).into fun title => { r with title }).andThen repairTags

/-- Loads a record into an empty one. -/
def load (isRemote : String → Bool) : Loader Record := fun old node =>
  withFields old node fun fields =>
    (loadHead fields empty).andThen (loadBody isRemote fields) |>.andThen repair

/-- The record of a document, for a test of remote addresses. -/
def ofJsonBy (isRemote : String → Bool) (node : Json) : Loaded Record := load isRemote empty node

/-- The record of a document. -/
def ofJson (node : Json) : Loaded Record := ofJsonBy Address.isRemote node

/-! ## §2. Storing. -/

/-- The fields of a record. -/
def storedParts (r : Record) : List (String × Json) :=
  [("refs", storeTexts r.refs)]
    ++ Translated.stored Title.store "title" r.title
    ++ [ ("genres", storeTexts r.genres),
         ("countries", storeTexts r.countries),
         ("age", storeTexts r.age),
         ("tags", storeTexts r.tags),
         ("episodes", storeTexts r.episodes),
         ("crew", r.crew.store) ]
    ++ Translated.stored .string "tagline" r.tagline
    ++ Translated.stored .string "summary" r.summary
    ++ [ ("image", r.image.store),
         ("dates", r.dates.store),
         ("year", storeOptional storeUInt32 r.year),
         ("runtime", storeOptional storeUInt32 r.runtime),
         ("rating", storeOptional storeUInt32 r.rating),
         ("video", r.video.store) ]

/-- A record as an object; nothing is stored for one that knows nothing. -/
def store (r : Record) : Json := storeFields r.storedParts

/-- A record as an object in any case. -/
def toJson (r : Record) : Json :=
  match r.store with
  | .null => .object []
  | node => node

end FilmCatalog.Record
