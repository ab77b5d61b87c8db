/-
  FilmCatalog.Merge.Titles
  ────────────────────────
  **MERGING TITLES.**

  Titles are merged language by language.  Only one of them should be the
  original one: an incoming original title in a new language gives way to a
  stored one, or takes its place, as the preference says.
-/
import FilmCatalog.Merge.Basic
import FilmCatalog.Title

namespace FilmCatalog

/-- Both sides of a title before its normal form: either the incoming one
with the stored sort text for a gap, or the stored one with its gaps
filled. -/
def Title.combine (prefer : Preference) (stored incoming : Title) : Title :=
  match prefer with
  | .theirs => ⟨incoming.text, incoming.sort.or stored.sort, incoming.original⟩
  | .mine =>
      ⟨if stored.text = "" then incoming.text else stored.text, stored.sort.or incoming.sort,
        stored.original⟩

/-- Merges two titles of one language. -/
def Title.merge (prefer : Preference) (stored incoming : Title) : Merged Title :=
  .replace stored (Title.combine prefer stored incoming).normalize.value

namespace Titles

/-- The tag of the first original title. -/
def originalTag? (titles : Titles) : Option String :=
  (titles.entries.find? fun entry => entry.2.original).map (·.1)

/-- Adds a title in a new language. -/
def mergeNew (prefer : Preference) (titles : Titles) (tag : String) (title : Title) :
    Merged Titles :=
  match if title.original then originalTag? titles else none with
  | none => .change (SortedMap.insert titles tag title)
  | some existing =>
      match prefer with
      | .mine => .keep titles
      | .theirs => .change (SortedMap.insert (SortedMap.erase titles existing) tag title)

/-- Merges the title of one language. -/
def mergeTitle (prefer : Preference) (titles : Titles) (tag : String) (title : Title) :
    Merged Titles :=
  match SortedMap.get? titles tag with
  | some current => (current.merge prefer title).into (SortedMap.insert titles tag)
  | none => mergeNew prefer titles tag title

/-- Merges the titles of all languages, in the order of their tags. -/
def merge (prefer : Preference) (stored incoming : Titles) : Merged Titles :=
  incoming.entries.foldl
    (fun merged entry => merged.andThen fun titles => mergeTitle prefer titles entry.1 entry.2)
    (.keep stored)

end Titles

end FilmCatalog
