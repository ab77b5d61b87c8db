/-
  FilmCatalog.Record.Basic
  ────────────────────────
  **THE RECORD OF A FILM.**

  Everything the catalogue knows of one film.
-/
import FilmCatalog.Artwork.Basic
import FilmCatalog.Crew.Load
import FilmCatalog.Dates
import FilmCatalog.Playback
import FilmCatalog.Title

namespace FilmCatalog

/-- What the catalogue knows of a film. -/
structure Record where
  /-- References into other catalogues. -/
  refs : List String
  title : Titles
  genres : List String
  countries : List String
  /-- Age ratings. -/
  age : List String
  tags : List String
  episodes : List String
  crew : Crew
  tagline : Translated String
  summary : Translated String
  image : Artwork
  dates : Dates
  year : Option UInt32
  /-- Minutes. -/
  runtime : Option UInt32
  rating : Option UInt32
  video : Playback
  deriving DecidableEq

namespace Record

/-- A record that knows nothing. -/
def empty : Record where
  refs := []
  title := .empty
  genres := []
  countries := []
  age := []
  tags := []
  episodes := []
  crew := .empty
  tagline := .empty
  summary := .empty
  image := .none
  dates := .none
  year := none
  runtime := none
  rating := none
  video := .unknown

instance : Inhabited Record := ⟨empty⟩

/-! ## Tags -/

/-- Whether the record has a tag. -/
def hasTag (r : Record) (tag : String) : Bool := r.tags.contains tag

/-- Adds a tag that is not there yet. -/
def addTag (r : Record) (tag : String) : Record :=
  if r.hasTag tag then r else { r with tags := r.tags ++ [tag] }

/-- Drops a tag where it stands first. -/
def removeTag (r : Record) (tag : String) : Record := { r with tags := r.tags.erase tag }

/-- The items of a list that are not among `seen` or the items before
them. -/
def firstOccurrences (seen : List String) : List String → List String
  | [] => []
  | item :: rest =>
      if seen.contains item then firstOccurrences seen rest
      else item :: firstOccurrences (item :: seen) rest

/-- Keeps the first of equal tags. -/
def dedupTags (r : Record) : Record := { r with tags := firstOccurrences [] r.tags }

/-- Whether a tag stands twice. -/
def hasRepeatedTag (r : Record) : Bool := r.dedupTags.tags.length ≠ r.tags.length

end Record

end FilmCatalog
