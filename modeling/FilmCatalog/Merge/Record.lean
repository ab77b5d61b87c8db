/-
  FilmCatalog.Merge.Record
  ────────────────────────
  **MERGING RECORDS.**

  Two records are merged field by field.  Only the crew can refuse to be
  merged; then nothing is.
-/
import FilmCatalog.Merge.Artwork
import FilmCatalog.Merge.Crew
import FilmCatalog.Merge.Titles
import FilmCatalog.Record.Basic

namespace FilmCatalog

/-- Merges two sets of dates; incoming dates count. -/
def Dates.merge (stored incoming : Dates) : Merged Dates :=
  let published := Merged.optional stored.published incoming.published
  let stream := Merged.optional stored.stream incoming.stream
  let poster := Merged.optional stored.poster incoming.poster
  ⟨⟨published.value, stream.value, poster.value⟩,
    (published.outcome.absorb stream.outcome).absorb poster.outcome⟩

/-- Merges what is known of two videos. -/
def Playback.merge (stored incoming : Playback) : Merged Playback :=
  let credits := Merged.optional stored.credits incoming.credits
  let endOfWatch := Merged.optional stored.endOfWatch incoming.endOfWatch
  let markers := WeaveRule.markers.merge stored.markers incoming.markers
  ⟨⟨credits.value, endOfWatch.value, markers.value⟩,
    (credits.outcome.absorb endOfWatch.outcome).absorb markers.outcome⟩

/-- A merged record, with the file operations that follow. -/
structure RecordMerge where
  record : Record
  outcome : Outcome
  imageOps : List ImageOp
  deriving DecidableEq

namespace Record

/-- Merges two lists of tags; none is kept twice. -/
def mergeTags (stored incoming : List String) : Merged (List String) :=
  (WeaveRule.texts.merge stored incoming).andThen fun tags =>
    .replace tags (firstOccurrences [] tags)

/-- Merges two records whose crews are merged already. -/
def mergeWith (prefs : Preferences) (stored incoming : Record) (crew : Merged Crew) :
    RecordMerge :=
  let refs := WeaveRule.texts.merge stored.refs incoming.refs
  let title := Titles.merge prefs.title stored.title incoming.title
  let genres := WeaveRule.texts.merge stored.genres incoming.genres
  let countries := WeaveRule.texts.merge stored.countries incoming.countries
  let age := WeaveRule.texts.merge stored.age incoming.age
  let tags := mergeTags stored.tags incoming.tags
  let episodes := WeaveRule.texts.merge stored.episodes incoming.episodes
  let tagline := Merged.texts stored.tagline incoming.tagline
  let summary := Merged.texts stored.summary incoming.summary
  let image := stored.image.merge incoming.image
  let dates := stored.dates.merge incoming.dates
  let year := Merged.preferred prefs.details stored.year incoming.year
  let runtime := Merged.preferred prefs.details stored.runtime incoming.runtime
  let rating := Merged.preferred prefs.details stored.rating incoming.rating
  let video := stored.video.merge incoming.video
  { record :=
      { refs := refs.value, title := title.value, genres := genres.value,
        countries := countries.value, age := age.value, tags := tags.value,
        episodes := episodes.value, crew := crew.value, tagline := tagline.value,
        summary := summary.value, image := image.value, dates := dates.value,
        year := year.value, runtime := runtime.value, rating := rating.value,
        video := video.value }
    outcome :=
      [ refs.outcome, title.outcome, genres.outcome, countries.outcome, age.outcome,
        tags.outcome, episodes.outcome, crew.outcome, tagline.outcome, summary.outcome,
        image.outcome, dates.outcome, year.outcome, runtime.outcome, rating.outcome,
        video.outcome ].foldl Outcome.absorb .unchanged
    imageOps := stored.image.plan image.value }

/-- Merges an incoming record into a stored one. -/
def merge (prefs : Preferences) (stored incoming : Record) : Except MergeError RecordMerge :=
  match stored.crew.merge incoming.crew with
  | .error error => .error (.field "crew" error)
  | .ok crew => .ok (mergeWith prefs stored incoming crew)

end Record

end FilmCatalog
