/-
  FilmCatalog.Proofs.Record.Keeping
  ─────────────────────────────────
  **WHAT IS STORED SURVIVES A MERGE.**

  With the preference for the stored side, a merge fills gaps and adds.  Each
  field says in its own way what stays of it: titles by language, numbers as
  they are, lists as the beginning of the merged ones, images that can be
  fetched, and the people of every role with their references.
-/
import FilmCatalog.Proofs.Artwork.Keeping
import FilmCatalog.Proofs.Crew.Pairing
import FilmCatalog.Proofs.Record.NormalForm
import FilmCatalog.Proofs.Titles.Keeping

namespace FilmCatalog

theorem Merged.preferred_mine {α : Type} [DecidableEq α] {stored : Option α} (h : stored ≠ none)
    (incoming : Option α) : preferred .mine stored incoming = .keep stored := by
  obtain ⟨value, rfl⟩ := Option.ne_none_iff_exists'.1 h
  rfl

theorem WeaveRule.prefix_merge_texts (stored incoming : List String) :
    stored <+: (WeaveRule.texts.merge stored incoming).value := by
  show stored <+: WeaveRule.texts.mergeLists stored incoming
  rw [mergeLists_texts_eq]
  exact List.prefix_append _ _

namespace Record

/-- **What a merge keeps of the stored record.** -/
structure Kept (stored merged : Record) : Prop where
  title : ∀ tag title, SortedMap.get? stored.title tag = some title →
    ∃ kept, SortedMap.get? merged.title tag = some kept ∧ title.Kept kept
  originals : Titles.originals merged.title ≤ max 1 (Titles.originals stored.title)
  year : stored.year ≠ none → merged.year = stored.year
  runtime : stored.runtime ≠ none → merged.runtime = stored.runtime
  rating : stored.rating ≠ none → merged.rating = stored.rating
  refs : stored.refs <+: merged.refs
  genres : stored.genres <+: merged.genres
  countries : stored.countries <+: merged.countries
  age : stored.age <+: merged.age
  tags : stored.tags <+: merged.tags
  episodes : stored.episodes <+: merged.episodes
  image : stored.image.Kept merged.image
  crew : stored.crew.Kept merged.crew

theorem kept_mergeWith {stored incoming : Record} (hstored : Repaired Crew.Normal stored)
    (hincoming : incoming.Normal) :
    stored.Kept (mergeWith ⟨.mine, .mine⟩ stored incoming
      (.replace stored.crew (stored.crew.mergedCrew incoming.crew))).record where
  title := fun _ _ htitle => Titles.exists_kept_merge hstored.title htitle
  originals := Titles.originals_merge_le stored.title incoming.title
  year := fun h => congrArg Merged.value (Merged.preferred_mine h incoming.year)
  runtime := fun h => congrArg Merged.value (Merged.preferred_mine h incoming.runtime)
  rating := fun h => congrArg Merged.value (Merged.preferred_mine h incoming.rating)
  refs := WeaveRule.prefix_merge_texts stored.refs incoming.refs
  genres := WeaveRule.prefix_merge_texts stored.genres incoming.genres
  countries := WeaveRule.prefix_merge_texts stored.countries incoming.countries
  age := WeaveRule.prefix_merge_texts stored.age incoming.age
  tags := by
    show stored.tags <+: (mergeTags stored.tags incoming.tags).value
    rw [mergeTags_eq hstored.tags hincoming.tags]
    exact WeaveRule.prefix_merge_texts stored.tags incoming.tags
  episodes := WeaveRule.prefix_merge_texts stored.episodes incoming.episodes
  image := Artwork.kept_mergeImages hstored.image incoming.image
  crew := Crew.kept_mergedCrew hstored.crew.attached incoming.crew

/-- **Merging never takes away what is stored**, where the stored side is
preferred: records of documents can be merged so, and the merged record keeps
all that the stored one says. -/
theorem merge_keeps_stored (node other : Json) (outcome after : Outcome)
    (hnode : (ofJson node).result = .ok outcome) (hother : (ofJson other).result = .ok after) :
    ∃ merged, merge ⟨.mine, .mine⟩ (ofJson node).value (ofJson other).value = .ok merged ∧
      (ofJson node).value.Kept merged.record := by
  have hstored := ensures_ofJson_normal node outcome hnode
  have hincoming := (ensures_ofJson_normal other after hother).normal
  have hcrew := Crew.merge_eq_mergedCrew hstored.crew.attached hincoming.crew.attached
  exact ⟨_, merge_of_crew hcrew ⟨.mine, .mine⟩, kept_mergeWith hstored hincoming⟩

/-- A record that somebody took care of. -/
def curatedDocument : Json :=
  .object [
    ("crew", .object [
      ("directors", .array [.ofInt 0]),
      ("names", .array [.array [.string "Ann", .string "imdb:1"]])]),
    ("image", .object [
      ("gallery", .array [.array [.string "a/02-gallery-00.jpg", .string "https://example.org/a.jpg"]]),
      ("poster", .object [("large", .string "https://example.org/large.jpg")])]),
    ("refs", .array [.string "imdb:tt1"]),
    ("title:cs", .object [("original", .bool true), ("sort", .string "Samotari"),
      ("text", .string "Samotáři")]),
    ("year", .ofInt 2000)]

/-- What was found about it, with another view of everything. -/
def foundDocument : Json :=
  .object [
    ("crew", .object [
      ("directors", .array [.ofInt 0, .ofInt 1]),
      ("names", .array [.string "Bob", .array [.string "Ann", .string "imdb:2", .string "tmdb:3"]])]),
    ("image", .object [
      ("gallery", .array [.string "https://example.org/b.jpg"]),
      ("poster", .object [("large", .string "https://example.org/other.jpg")])]),
    ("refs", .array [.string "tmdb:2", .string "imdb:tt1"]),
    ("title:cs", .object [("sort", .string "Loners"), ("text", .string "Loners")]),
    ("title:en", .object [("original", .bool true), ("text", .string "Loners")]),
    ("year", .ofInt 1999)]

theorem merge_keeps_curated :
    (ofJson curatedDocument).result = .ok .unchanged ∧
    (ofJson foundDocument).result = .ok .unchanged ∧
    ∃ merged, merge ⟨.mine, .mine⟩ (ofJson curatedDocument).value (ofJson foundDocument).value
        = .ok merged ∧ (ofJson curatedDocument).value.Kept merged.record := by
  have hstored : (ofJson curatedDocument).result = .ok .unchanged := by decide +kernel
  have hincoming : (ofJson foundDocument).result = .ok .unchanged := by decide +kernel
  exact ⟨hstored, hincoming,
    merge_keeps_stored curatedDocument foundDocument .unchanged .unchanged hstored hincoming⟩

end Record

end FilmCatalog
