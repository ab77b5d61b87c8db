/-
  FilmCatalog.Proofs.Record.NormalForm
  ────────────────────────────────────
  **THE NORMAL FORM OF RECORDS.**

  A record is in normal form when its crew and all its titles are and no tag
  stands twice.  A load gives it, whatever the document held, and a merge of
  two records that have it succeeds and keeps it.  So every record that comes
  out of a document and any number of merges has it.
-/
import FilmCatalog.Merge.Record
import FilmCatalog.Proofs.Crew.Merging
import FilmCatalog.Proofs.Grouping.Texts
import FilmCatalog.Proofs.Record.Loading

namespace FilmCatalog.Record

open Loaded

/-! ## §1. The normal form. -/

/-- **The normal form of a record.** -/
structure Normal (r : Record) : Prop where
  crew : r.crew.Normal
  tags : r.tags.Nodup
  title : Translated.Forall Title.Normal r.title

theorem Repaired.normal {r : Record} (h : Repaired Crew.Normal r) : r.Normal :=
  ⟨h.crew, h.tags, h.title⟩

/-! ## §2. Merges. -/

theorem nodup_mergeTags (stored incoming : List String) :
    (mergeTags stored incoming).value.Nodup := nodup_firstOccurrences [] _

/-- Tags that differ on both sides differ after the merge, so none is
dropped. -/
theorem mergeTags_eq {stored incoming : List String} (hstored : stored.Nodup)
    (hincoming : incoming.Nodup) :
    mergeTags stored incoming = WeaveRule.texts.merge stored incoming := by
  refine Merged.andThen_keep (WeaveRule.texts.exact_merge stored incoming).ne_absent ?_
  have hnodup : (WeaveRule.texts.merge stored incoming).value.Nodup :=
    WeaveRule.nodup_mergeLists_texts hstored hincoming
  rw [firstOccurrences_eq_self hnodup (by simp), Merged.replace_self]

/-- A merge of records succeeds if the one of their crews does. -/
theorem merge_of_crew {stored incoming : Record} {crew : Merged Crew}
    (h : stored.crew.merge incoming.crew = .ok crew) (prefs : Preferences) :
    merge prefs stored incoming = .ok (mergeWith prefs stored incoming crew) := by
  unfold merge
  rw [h]

theorem exists_merge_normal (prefs : Preferences) {stored incoming : Record}
    (hstored : stored.Normal) (hincoming : incoming.Normal) :
    ∃ merged, merge prefs stored incoming = .ok merged ∧ merged.record.Normal := by
  obtain ⟨crew, hcrew, hmerge⟩ := Crew.exists_merge_normal hstored.crew hincoming.crew
  refine ⟨_, merge_of_crew hmerge prefs, ?_⟩
  exact {
    crew := hcrew
    tags := nodup_mergeTags stored.tags incoming.tags
    title := Titles.forall_normal_merge prefs.title hstored.title hincoming.title }

/-! ## §3. Documents and merges together. -/

/-- **Records are in normal form.**  Every record that is loaded from a
document is, and records in normal form can be merged, into one that is in
normal form again. -/
theorem normal_loaded_and_merged :
    (∀ node outcome, (ofJson node).result = .ok outcome → (ofJson node).value.Normal) ∧
    (∀ prefs stored incoming, Normal stored → Normal incoming →
      ∃ merged, merge prefs stored incoming = .ok merged ∧ merged.record.Normal) :=
  ⟨fun node outcome hresult => (ensures_ofJson_normal node outcome hresult).normal,
    fun prefs _ _ => exists_merge_normal prefs⟩

/-- A document with a placeholder, an unused and a repeated name, references
out of order, a repeated tag and a sort title that says nothing new. -/
def untidyDocument : Json :=
  .object [
    ("crew", .object [
      ("cast", .array [.array [.ofInt 2, .string "Eve"], .ofInt 3, .ofInt 1]),
      ("names", .array [.string "Unused", .array [.string "Ann", .string "tmdb:7", .string "imdb:1"],
        .string "N/A", .array [.string "Ann", .string "imdb:1", .string "tmdb:7"]])]),
    ("tags", .array [.string "seen", .string "new", .string "seen"]),
    ("title", .object [("sort", .string "Up"), ("text", .string "Up")])]

theorem normal_loaded_and_merged_untidy :
    (ofJson untidyDocument).result = .ok .updated ∧ (ofJson untidyDocument).value.Normal ∧
    ∃ merged, merge ⟨.theirs, .mine⟩ (ofJson untidyDocument).value (ofJson untidyDocument).value
      = .ok merged ∧ merged.record.Normal := by
  have hresult : (ofJson untidyDocument).result = .ok .updated := by decide +kernel
  have hnormal := normal_loaded_and_merged.1 untidyDocument .updated hresult
  exact ⟨hresult, hnormal, normal_loaded_and_merged.2 _ _ _ hnormal hnormal⟩

end FilmCatalog.Record
