/-
  FilmCatalog.Proofs.Artwork.Plan
  ───────────────────────────────
  **WHICH FILES A MERGE REMOVES.**

  The plan of a merge removes files of the stored gallery.  A file counts as
  unused as soon as no image of the *gallery* has its path any more
  (`remove_mem_plan_iff`); highlights and posters are not asked.  They are
  merged and cleared on their own, and their paths come from either side
  (`mem_covers_mergeImages`).  So

    • the plan is safe exactly if every highlight and every poster that shares
      the file of a stored gallery image shares one of the new gallery too,
    • it is safe if highlights and posters of neither side share a file with the
      stored gallery (`safePlan_merge_iff`),
    • a highlight without an address loses its file for good if a gallery image
      had the same one (`shared_file_removed`).
-/
import FilmCatalog.Proofs.Artwork.Stability

namespace FilmCatalog

/-! ## §1. Where highlights and posters come from. -/

/-- What holds of both sides and is kept by the merge of one value holds of all
languages. -/
theorem Merged.forall_languages {α : Type} {mergeOne : α → α → Merged α} {P : α → Prop}
    (hmerge : ∀ a b, P a → P b → P (mergeOne a b).value) {stored incoming : Translated α}
    (hstored : Translated.Forall P stored) (hincoming : Translated.Forall P incoming) :
    Translated.Forall P (languages mergeOne stored incoming).value := by
  refine run_induction (P := Translated.Forall P) hstored fun entry hentry m hm => ?_
  have hentry := hincoming entry.1 entry.2 (SortedMap.get?_of_mem_entries hentry)
  unfold language
  cases hget : SortedMap.get? m entry.1 with
  | none => exact Translated.forall_insert hm hentry
  | some current => exact Translated.forall_insert hm (hmerge _ _ (hm _ _ hget) hentry)

/-- A merged image is one of the two. -/
theorem Image.merge_cases (stored incoming : Image) :
    (stored.merge incoming).value = stored ∨ (stored.merge incoming).value = incoming := by
  unfold Image.merge
  split
  · exact .inl rfl
  · exact .inr rfl

namespace PosterSet

/-- An image of a merged size was there on one of the sides. -/
theorem of_mergeSize {stored incoming : Option Image} {image : Image}
    (h : (mergeSize stored incoming).value = some image) :
    stored = some image ∨ incoming = some image := by
  cases stored with
  | none =>
    cases incoming with
    | none => cases h
    | some fresh => exact .inr h
  | some current =>
    cases incoming with
    | none => exact .inl h
    | some fresh =>
      have himage : (current.merge fresh).value = image := Option.some.inj h
      rcases current.merge_cases fresh with hcurrent | hfresh
      · exact .inl (congrArg some (hcurrent.symm.trans himage))
      · exact .inr (congrArg some (hfresh.symm.trans himage))

/-- Every image of a merged set stands in one of the two. -/
theorem mem_images_merge {stored incoming : PosterSet} {image : Image}
    (h : image ∈ (stored.merge incoming).value.images) :
    image ∈ stored.images ∨ image ∈ incoming.images := by
  simp only [mem_images] at h ⊢
  rcases h with hsmall | hnormal | hlarge
  · exact (of_mergeSize hsmall).imp .inl .inl
  · exact (of_mergeSize hnormal).imp (fun h => .inr (.inl h)) fun h => .inr (.inl h)
  · exact (of_mergeSize hlarge).imp (fun h => .inr (.inr h)) fun h => .inr (.inr h)

theorem of_keepFilled {size : Option Image} {image : Image} (h : keepFilled size = some image) :
    size = some image := (Option.filter_eq_some_iff.1 h).1

theorem mem_images_clearEmpty {p : PosterSet} {image : Image} (h : image ∈ p.clearEmpty.images) :
    image ∈ p.images := by
  rw [mem_images] at h ⊢
  exact h.imp of_keepFilled (Or.imp of_keepFilled of_keepFilled)

end PosterSet

namespace Artwork

theorem mem_covers {a : Artwork} {image : Image} :
    image ∈ a.covers ↔ (∃ tag, SortedMap.get? a.highlight tag = some image) ∨
      ∃ tag posters, SortedMap.get? a.poster tag = some posters ∧ image ∈ posters.images := by
  unfold covers
  rw [List.mem_append, SortedMap.mem_values_iff, List.mem_flatMap]
  refine or_congr_right ⟨?_, ?_⟩
  · rintro ⟨posters, hposters, himage⟩
    obtain ⟨tag, htag⟩ := SortedMap.mem_values_iff.1 hposters
    exact ⟨tag, posters, htag, himage⟩
  · rintro ⟨tag, posters, htag, himage⟩
    exact ⟨posters, SortedMap.mem_values_iff.2 ⟨tag, htag⟩, himage⟩

/-- **Highlights and posters come from one of the sides**, with their paths. -/
theorem mem_covers_mergeImages {stored incoming : Artwork} {image : Image}
    (h : image ∈ (mergeImages stored incoming).covers) :
    image ∈ stored.covers ∨ image ∈ incoming.covers := by
  rcases mem_covers.1 h with ⟨tag, himage⟩ | ⟨tag, posters, hposters, himage⟩
  · -- A highlight of the result is a merged one that was not dropped.
    have hmerged : Translated.Forall (fun image => image ∈ stored.covers ∨ image ∈ incoming.covers)
        (Merged.languages Image.merge stored.highlight incoming.highlight).value := by
      apply Merged.forall_languages
      · intro a b ha hb
        rcases a.merge_cases b with heq | heq
        · rwa [heq]
        · rwa [heq]
      · exact fun tag image himage => .inl (mem_covers.2 (.inl ⟨tag, himage⟩))
      · exact fun tag image himage => .inr (mem_covers.2 (.inl ⟨tag, himage⟩))
    have hkept : SortedMap.get? (SortedMap.filter _ _) tag = some image := himage
    rw [SortedMap.get?_filter] at hkept
    exact hmerged tag image (Option.filter_eq_some_iff.1 hkept).1
  · have hmerged : Translated.Forall
        (fun posters => ∀ image ∈ posters.images, image ∈ stored.covers ∨ image ∈ incoming.covers)
        (Merged.languages PosterSet.merge stored.poster incoming.poster).value := by
      apply Merged.forall_languages
      · intro a b ha hb image himage
        exact (PosterSet.mem_images_merge himage).elim (ha image) (hb image)
      · exact fun tag posters hposters image himage =>
          .inl (mem_covers.2 (.inr ⟨tag, posters, hposters, himage⟩))
      · exact fun tag posters hposters image himage =>
          .inr (mem_covers.2 (.inr ⟨tag, posters, hposters, himage⟩))
    have hkept : SortedMap.get? (SortedMap.filter _ (SortedMap.map _ _)) tag = some posters := hposters
    rw [SortedMap.get?_filter, SortedMap.get?_map] at hkept
    obtain ⟨before, hbefore, rfl⟩ := Option.map_eq_some_iff.1 (Option.filter_eq_some_iff.1 hkept).1
    exact hmerged tag before hbefore image (PosterSet.mem_images_clearEmpty himage)

/-! ## §2. The files that are removed. -/

/-- **A safe plan** removes only files of the stored gallery, and none that an
image of the merged record has. -/
def SafePlan (stored merged : Artwork) : Prop :=
  ∀ path, .remove path ∈ plan stored merged →
    path ∈ stored.gallery.map Image.path ∧ path ∉ merged.images.map Image.path

/-- Only a highlight or a poster can make a plan unsafe. -/
theorem safePlan_iff {stored merged : Artwork} :
    SafePlan stored merged ↔ ∀ cover ∈ merged.covers, cover.path ≠ "" →
      cover.path ∈ stored.gallery.map Image.path → cover.path ∈ merged.gallery.map Image.path := by
  constructor
  · intro hsafe cover hcover hpath hstored
    by_contra hmerged
    refine (hsafe _ (remove_mem_plan_iff.2 ⟨hpath, hstored, hmerged⟩)).2 ?_
    exact List.mem_map_of_mem (List.mem_append_left _ hcover)
  · intro hcovers path hremove
    obtain ⟨hpath, hstored, hmerged⟩ := remove_mem_plan_iff.1 hremove
    refine ⟨hstored, fun hused => ?_⟩
    obtain ⟨image, himage, rfl⟩ := List.mem_map.1 hused
    rcases List.mem_append.1 himage with hcover | hgallery
    · exact hmerged (hcovers image hcover hpath hstored)
    · exact hmerged (List.mem_map_of_mem hgallery)

/-- **When the plan of a merge is safe.**  What it removes was a file of the stored
gallery and is none of the merged one.  It is safe exactly if no highlight and no
poster is left alone with a file of the stored gallery, and so if neither side
has one that shares a file with it. -/
theorem safePlan_merge_iff (stored incoming : Artwork) :
    (∀ path, .remove path ∈ plan stored (stored.merge incoming).value ↔
      path ≠ "" ∧ path ∈ stored.gallery.map Image.path ∧
        path ∉ (stored.merge incoming).value.gallery.map Image.path) ∧
    (SafePlan stored (stored.merge incoming).value ↔
      ∀ cover ∈ (stored.merge incoming).value.covers, cover.path ≠ "" →
        cover.path ∈ stored.gallery.map Image.path →
          cover.path ∈ (stored.merge incoming).value.gallery.map Image.path) ∧
    ((∀ cover, cover ∈ stored.covers ∨ cover ∈ incoming.covers → cover.path ≠ "" →
        cover.path ∉ stored.gallery.map Image.path) →
      SafePlan stored (stored.merge incoming).value) := by
  refine ⟨fun path => remove_mem_plan_iff, safePlan_iff, fun hapart => ?_⟩
  refine safePlan_iff.2 fun cover hcover hpath hstored => ?_
  exact absurd hstored (hapart cover (mem_covers_mergeImages hcover) hpath)

/-- A document whose highlight is a file of the gallery, without an address. -/
def sharingDocument : Json :=
  .object [("gallery", .array [.array [.string "alien/07.jpg", .string "https://example.org/a.jpg"]]),
    ("highlight", .string "alien/07.jpg")]

/-- **A highlight loses its file**: the gallery image gets a new name, and the file
that the highlight still has is removed. -/
theorem shared_file_removed :
    (ofJson sharingDocument).result = .ok .unchanged ∧
    (ofJson loneDocument).result = .ok .unchanged ∧
    ¬ SafePlan (ofJson sharingDocument).value
        ((ofJson sharingDocument).value.merge (ofJson loneDocument).value).value := by
  have hmerged : ((ofJson sharingDocument).value.merge (ofJson loneDocument).value).value
      = ⟨(ofJson sharingDocument).value.highlight, .empty,
          galleryOf "alien/" (fun url => (Entries.get? url
            [("https://example.org/a.jpg", "alien/07.jpg"), ("https://example.org/a.jpg", "")]).getD "") 0
            (WeaveRule.texts.mergeLists ["https://example.org/a.jpg"] ["https://example.org/a.jpg"])⟩ := by
    rfl
  refine ⟨by decide +kernel, by decide +kernel, fun hsafe => ?_⟩
  rw [hmerged, WeaveRule.texts.mergeLists_self fun text _ => WeaveRule.texts_keepsItself text,
    safePlan_iff] at hsafe
  revert hsafe
  decide +kernel

end Artwork

end FilmCatalog
