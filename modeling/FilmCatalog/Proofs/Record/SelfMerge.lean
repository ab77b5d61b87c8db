/-
  FilmCatalog.Proofs.Record.SelfMerge
  ───────────────────────────────────
  **A RECORD MERGED WITH ITSELF.**

  Nothing but the images can change, since the gallery is built anew; and
  where the images are placed, nothing does.
-/
import FilmCatalog.Proofs.Artwork.SelfMerge
import FilmCatalog.Proofs.Record.NormalForm

namespace FilmCatalog

open Loaded

theorem WeaveRule.merge_self {α : Type} [DecidableEq α] {rule : WeaveRule α} {items : List α}
    (h : ∀ item ∈ items, rule.KeepsItself item) : rule.merge items items = .keep items := by
  unfold WeaveRule.merge
  rw [rule.mergeLists_self h]
  exact Merged.replace_self items

theorem WeaveRule.merge_texts_self (items : List String) :
    WeaveRule.texts.merge items items = .keep items :=
  WeaveRule.merge_self fun text _ => WeaveRule.texts_keepsItself text

theorem Dates.merge_self (d : Dates) : d.merge d = .keep d := by
  unfold Dates.merge
  simp only [Merged.optional_self]
  rfl

theorem Playback.merge_self (p : Playback) : p.merge p = .keep p := by
  unfold Playback.merge
  simp only [Merged.optional_self,
    WeaveRule.merge_self fun marker (_ : marker ∈ p.markers) => WeaveRule.markers_keepsItself marker]
  rfl

namespace Record

theorem mergeTags_self {tags : List String} (h : tags.Nodup) : mergeTags tags tags = .keep tags := by
  rw [mergeTags_eq h h, WeaveRule.merge_texts_self]

/-- The two records agree in all fields but the images. -/
def SameButImage (a b : Record) : Prop := { a with image := b.image } = b

/-- A record in normal form merged with itself: all that happens, happens to
its images. -/
theorem merge_self_eq (prefs : Preferences) {r : Record} (h : r.Normal) :
    merge prefs r r = .ok
      { record := { r with image := r.image.mergeImages r.image }
        outcome := (r.image.merge r.image).outcome
        imageOps := r.image.plan (r.image.mergeImages r.image) } := by
  rw [merge_of_crew (Crew.merge_self h.crew)]
  unfold mergeWith
  simp only [WeaveRule.merge_texts_self, Titles.merge_self h.title, mergeTags_self h.tags,
    Merged.texts_self, Merged.preferred_self, Dates.merge_self, Playback.merge_self,
    Merged.replace_self]
  -- All other outcomes are `unchanged`, so the one of the images decides.
  have houtcome : (r.image.merge r.image).outcome ≠ .absent := Outcome.ofChanged_ne_absent _
  cases hcase : (r.image.merge r.image).outcome with
  | absent => exact absurd hcase houtcome
  | unchanged => rfl
  | updated => rfl

/-- **Merging a record with itself is no change.**  It succeeds for every
record of a document and keeps all fields but the images; if the images are
placed, it keeps the record, says so, and removes no file. -/
theorem merge_loaded_self (node : Json) (outcome : Outcome) (prefs : Preferences)
    (h : (ofJson node).result = .ok outcome) :
    ∃ merged, merge prefs (ofJson node).value (ofJson node).value = .ok merged ∧
      merged.record.SameButImage (ofJson node).value ∧
      ((ofJson node).value.image.Placed →
        merged.record = (ofJson node).value ∧ merged.outcome = .unchanged ∧
          ∀ path, .remove path ∉ merged.imageOps) := by
  have hloaded := ensures_ofJson_normal node outcome h
  refine ⟨_, merge_self_eq prefs hloaded.normal, rfl, fun hplaced => ?_⟩
  have himage := Artwork.mergeImages_self hloaded.image hplaced
  refine ⟨?_, ?_, fun path => ?_⟩
  · simp only [himage]
  · show (Merged.replace _ _).outcome = .unchanged
    rw [himage, Merged.replace_self]
    rfl
  · simp only [himage]
    exact Artwork.remove_not_mem_plan_self _ path

/-- A document with a highlight, a poster and a gallery in their places. -/
def placedDocument : Json :=
  .object [
    ("crew", .object [("directors", .array [.ofInt 0]), ("names", .array [.string "Ann"])]),
    ("image", .object [
      ("gallery", .array [
        .array [.string "up/02-gallery-00.jpg", .string "https://example.org/b.jpeg"],
        .array [.string "up/02-gallery-01.png", .string "https://example.org/a.png"]]),
      ("highlight:en", .array [.string "up/en/01-highlight.jpg", .string "https://example.org/h"]),
      ("poster", .object [("large", .string "up/00-poster-2_large.jpg")])]),
    ("tags", .array [.string "seen"])]

theorem merge_loaded_self_placed :
    (ofJson placedDocument).result = .ok .unchanged ∧
    (ofJson placedDocument).value.image.Placed ∧
    ∃ merged, merge ⟨.theirs, .mine⟩ (ofJson placedDocument).value (ofJson placedDocument).value
        = .ok merged ∧
      merged.record = (ofJson placedDocument).value ∧ merged.outcome = .unchanged ∧
        ∀ path, .remove path ∉ merged.imageOps := by
  have hresult : (ofJson placedDocument).result = .ok .unchanged := by decide +kernel
  have hplaced : (ofJson placedDocument).value.image.Placed :=
    ⟨by decide +kernel, by decide +kernel, by decide +kernel, by decide +kernel⟩
  obtain ⟨merged, hmerged, _, hsame⟩ :=
    merge_loaded_self placedDocument .unchanged ⟨.theirs, .mine⟩ hresult
  exact ⟨hresult, hplaced, merged, hmerged, hsame hplaced⟩

end Record

end FilmCatalog
