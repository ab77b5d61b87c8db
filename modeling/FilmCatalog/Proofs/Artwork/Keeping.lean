/-
  FilmCatalog.Proofs.Artwork.Keeping
  ──────────────────────────────────
  **IMAGES THAT CAN BE FETCHED SURVIVE A MERGE.**

  A highlight or a poster with an address stays, in its language and its size:
  no merge of images replaces it, and since it is not empty, none drops it
  afterwards.  Gallery images get new files, but every stored address is listed
  again (`kept_mergeImages`).
-/
import FilmCatalog.Proofs.Artwork.SelfMerge
import FilmCatalog.Proofs.Grouping.Texts

namespace FilmCatalog

/-! ## §1. Single images. -/

namespace Image

/-- An image can be fetched from its address unless that is the empty text. -/
theorem source_eq_some_iff {image : Image} {url : String} :
    image.source = some url ↔ image.url = some url ∧ url ≠ "" := by
  unfold source
  rw [Option.filter_eq_some_iff, decide_eq_true_eq]

/-- An image can be fetched if it has an address that is not the empty text. -/
theorem isSome_source (image : Image) : image.source.isSome = image.url.any (· ≠ "") :=
  Option.isSome_filter

/-- An image that can be fetched stays as it is. -/
theorem merge_of_source {stored : Image} (h : stored.source.isSome) (incoming : Image) :
    stored.merge incoming = .keep stored := by
  unfold merge
  rw [if_pos h]

theorem isEmpty_of_source {image : Image} (h : image.source.isSome) : image.isEmpty = false := by
  unfold isEmpty
  rw [Option.isNone_eq_false_iff.2 h, Bool.and_false]

/-- A tidy image can be fetched from the address that it has. -/
theorem source_of_tidy {image : Image} (h : image.Tidy) {url : String}
    (hurl : image.url = some url) : image.source = some url :=
  source_eq_some_iff.2 ⟨hurl, fun hempty => h (hempty ▸ hurl)⟩

end Image

/-! ## §2. Posters. -/

namespace PosterSet

/-- The image of a size is still there, if it can be fetched. -/
def KeptSize (stored merged : Option Image) : Prop :=
  ∀ image, stored = some image → image.source.isSome → merged = some image

/-- All images that can be fetched are still there, each in its size. -/
structure Kept (stored merged : PosterSet) : Prop where
  small : KeptSize stored.small merged.small
  normal : KeptSize stored.normal merged.normal
  large : KeptSize stored.large merged.large

theorem KeptSize.trans {a b c : Option Image} (hab : KeptSize a b) (hbc : KeptSize b c) :
    KeptSize a c := by
  intro image himage hsource
  exact hbc image (hab image himage hsource) hsource

theorem Kept.refl (p : PosterSet) : p.Kept p :=
  ⟨fun _ h _ => h, fun _ h _ => h, fun _ h _ => h⟩

theorem Kept.trans {p q r : PosterSet} (hpq : p.Kept q) (hqr : q.Kept r) : p.Kept r :=
  ⟨hpq.small.trans hqr.small, hpq.normal.trans hqr.normal, hpq.large.trans hqr.large⟩

/-- A merge keeps an image that can be fetched in its size. -/
theorem keptSize_mergeSize (stored incoming : Option Image) :
    KeptSize stored (mergeSize stored incoming).value := by
  rintro image rfl hsource
  cases incoming with
  | none => rfl
  | some fresh =>
    show some (image.merge fresh).value = some image
    rw [Image.merge_of_source hsource]
    rfl

/-- A merge of posters keeps all that can be fetched. -/
theorem kept_merge (stored incoming : PosterSet) : stored.Kept (stored.merge incoming).value :=
  ⟨keptSize_mergeSize _ _, keptSize_mergeSize _ _, keptSize_mergeSize _ _⟩

/-- An image that can be fetched is not empty, so it is not cleared. -/
theorem keptSize_keepFilled (size : Option Image) : KeptSize size (keepFilled size) := by
  rintro image rfl hsource
  simp [keepFilled, Image.isEmpty_of_source hsource]

theorem kept_clearEmpty (p : PosterSet) : p.Kept p.clearEmpty :=
  ⟨keptSize_keepFilled _, keptSize_keepFilled _, keptSize_keepFilled _⟩

/-- An image that can be fetched is still among the posters. -/
theorem Kept.mem_images {stored merged : PosterSet} (h : stored.Kept merged) {image : Image}
    (himage : image ∈ stored.images) (hsource : image.source.isSome) : image ∈ merged.images := by
  rw [PosterSet.mem_images] at himage ⊢
  rcases himage with hsmall | hnormal | hlarge
  · exact .inl (h.small image hsmall hsource)
  · exact .inr (.inl (h.normal image hnormal hsource))
  · exact .inr (.inr (h.large image hlarge hsource))

end PosterSet

namespace Artwork

/-! ## §3. The gallery. -/

/-- The known addresses after one more. -/
theorem mem_addSource {known : List (String × String)} {entry : String × String} {url : String} :
    url ∈ (addSource known entry).map (·.1) ↔ url ∈ known.map (·.1) ∨ url = entry.1 := by
  unfold addSource
  by_cases hknown : (known.any fun other => other.1 = entry.1) = true
  · rw [if_pos hknown]
    obtain ⟨other, hother, heq⟩ := List.any_eq_true.1 hknown
    refine ⟨.inl, ?_⟩
    rintro (hurl | rfl)
    · exact hurl
    · exact of_decide_eq_true heq ▸ List.mem_map_of_mem hother
  · rw [if_neg hknown, List.map_append, List.mem_append, List.map_singleton, List.mem_singleton]

/-- Every address is listed. -/
theorem mem_foldl_addSource {known entries : List (String × String)} {url : String} :
    url ∈ (entries.foldl addSource known).map (·.1) ↔
      url ∈ known.map (·.1) ∨ url ∈ entries.map (·.1) := by
  induction entries generalizing known with
  | nil => simp
  | cons entry rest ih => rw [List.foldl_cons, ih, mem_addSource, List.map_cons, List.mem_cons, or_assoc]

/-- The address of every image is among the sources. -/
theorem mem_sources {images : List Image} {image : Image} {url : String} (himage : image ∈ images)
    (hurl : image.source = some url) : url ∈ (sources images).map (·.1) := by
  refine List.mem_map.2 ⟨(url, image.path), List.mem_filterMap.2 ⟨image, himage, ?_⟩, rfl⟩
  rw [hurl, Option.map_some]

/-- The images of a gallery by their positions. -/
theorem galleryOf_eq (directory : String) (pathOf : String → String) (index : Nat)
    (urls : List String) :
    galleryOf directory pathOf index urls = (urls.zipIdx index).map fun entry =>
      ⟨directory ++ galleryName entry.2 ++ keptExtension (pathOf entry.1), some entry.1⟩ := by
  induction urls generalizing index with
  | nil => rfl
  | cons url rest ih => rw [galleryOf, List.zipIdx_cons, List.map_cons, ih]

/-- A gallery has the addresses that it is built of. -/
theorem map_url_galleryOf (directory : String) (pathOf : String → String) (index : Nat)
    (urls : List String) : (galleryOf directory pathOf index urls).map Image.url = urls.map some := by
  induction urls generalizing index with
  | nil => rfl
  | cons url rest ih => rw [galleryOf, List.map_cons, List.map_cons, ih]

/-! ## §4. The merge. -/

/-- **What a merge keeps of the stored images.** -/
structure Kept (stored merged : Artwork) : Prop where
  highlight : ∀ tag image, SortedMap.get? stored.highlight tag = some image → image.source.isSome →
    SortedMap.get? merged.highlight tag = some image
  poster : ∀ tag posters, SortedMap.get? stored.poster tag = some posters →
    (∃ image ∈ posters.images, image.source.isSome) →
      ∃ kept, SortedMap.get? merged.poster tag = some kept ∧ posters.Kept kept
  gallery : ∀ image ∈ stored.gallery, ∀ url, image.url = some url →
    ∃ kept ∈ merged.gallery, kept.url = some url

/-- A stored highlight that can be fetched stays in its language. -/
theorem get?_highlight_mergeImages {stored incoming : Artwork} {tag : String} {image : Image}
    (himage : SortedMap.get? stored.highlight tag = some image) (hsource : image.source.isSome) :
    SortedMap.get? (mergeImages stored incoming).highlight tag = some image := by
  have hstep : ∀ value fresh, value = image → (Image.merge value fresh).value = image := by
    rintro value fresh rfl
    rw [Image.merge_of_source hsource]
    rfl
  obtain ⟨kept, hkept, rfl⟩ := Merged.exists_languages (P := fun value => value = image) hstep
    himage rfl incoming.highlight
  show SortedMap.get? (SortedMap.filter _ _) tag = _
  rw [SortedMap.get?_filter, hkept]
  simp [Image.isEmpty_of_source hsource]

/-- Stored posters stay in their language if one of them can be fetched. -/
theorem exists_kept_poster {stored incoming : Artwork} {tag : String} {posters : PosterSet}
    (hposters : SortedMap.get? stored.poster tag = some posters)
    (hsource : ∃ image ∈ posters.images, image.source.isSome) :
    ∃ kept, SortedMap.get? (mergeImages stored incoming).poster tag = some kept ∧
      posters.Kept kept := by
  obtain ⟨merged, hmerged, hkept⟩ := Merged.exists_languages
    (fun value fresh (h : posters.Kept value) => h.trans (PosterSet.kept_merge value fresh))
    hposters (PosterSet.Kept.refl posters) incoming.poster
  have hcleared := hkept.trans (PosterSet.kept_clearEmpty merged)
  -- The set is not dropped, since an image of it is left.
  obtain ⟨image, himage, hfetch⟩ := hsource
  have hfilled : merged.clearEmpty.isEmpty = false :=
    List.all_eq_false.2 ⟨image, hcleared.mem_images himage hfetch,
      by simp [Image.isEmpty_of_source hfetch]⟩
  refine ⟨merged.clearEmpty, ?_, hcleared⟩
  show SortedMap.get? (SortedMap.filter _ (SortedMap.map _ _)) tag = _
  rw [SortedMap.get?_filter, SortedMap.get?_map, hmerged]
  simp [hfilled]

/-- The address of a stored gallery image stays in the gallery. -/
theorem exists_gallery_url {stored incoming : Artwork} {image : Image} (himage : image ∈ stored.gallery)
    {url : String} (hurl : image.source = some url) :
    ∃ kept ∈ (mergeImages stored incoming).gallery, kept.url = some url := by
  -- The stored gallery is part of what the new one starts from, whatever was displaced.
  have hbase : ∀ highlight, url ∈ (galleryBase highlight stored incoming).map (·.1) := by
    intro highlight
    unfold galleryBase
    rw [mem_foldl_addSource]
    exact .inr (mem_sources (List.mem_append_right _ himage) hurl)
  have hlisted : some url ∈ (mergeImages stored incoming).gallery.map Image.url := by
    unfold mergeImages
    simp only [map_url_galleryOf, WeaveRule.mergeLists_texts_eq]
    exact List.mem_map_of_mem (List.mem_append_left _ (hbase _))
  exact List.mem_map.1 hlisted

/-- **Stored images that can be fetched survive a merge.** -/
theorem kept_mergeImages {stored : Artwork} (h : stored.Tidy) (incoming : Artwork) :
    stored.Kept (mergeImages stored incoming) where
  highlight := fun _ _ himage hsource => get?_highlight_mergeImages himage hsource
  poster := fun _ _ hposters hsource => exists_kept_poster hposters hsource
  gallery := fun image himage _ hurl =>
    exists_gallery_url himage (Image.source_of_tidy (h.gallery image himage) hurl)

end Artwork

end FilmCatalog
