/-
  FilmCatalog.Proofs.Artwork.SelfMerge
  ────────────────────────────────────
  **IMAGES MERGED WITH THEMSELVES.**

  Highlights and posters stay.  The gallery is built anew, so it stays only
  where it is *placed*: every image can be fetched, no address comes twice,
  and every file already has the name that a merge would give it.  Then the
  merge leaves all images, and no file loses its image.
-/
import FilmCatalog.Merge.Artwork
import FilmCatalog.Proofs.Artwork.Loading
import FilmCatalog.Proofs.Merging
import FilmCatalog.Proofs.Weave

namespace FilmCatalog

/-! ## §1. Single images and posters. -/

theorem Image.merge_self (i : Image) : i.merge i = .keep i := by
  unfold Image.merge
  split
  · rfl
  · exact Merged.replace_self i

theorem PosterSet.mergeSize_self (size : Option Image) : mergeSize size size = .keep size := by
  cases size with
  | none => rfl
  | some image =>
    show (image.merge image).into some = .keep (some image)
    rw [Image.merge_self]
    rfl

theorem PosterSet.merge_self (p : PosterSet) : p.merge p = .keep p := by
  unfold PosterSet.merge
  simp only [mergeSize_self]
  rfl

/-- A set without empty images has nothing to clear. -/
theorem PosterSet.clearEmpty_eq_self {p : PosterSet}
    (h : ∀ image ∈ p.images, image.isEmpty = false) : p.clearEmpty = p := by
  have hkeep : ∀ size : Option Image, (∀ image ∈ size, image.isEmpty = false) →
      keepFilled size = size := by
    intro size hsize
    cases size with
    | none => rfl
    | some image => simp [keepFilled, hsize image rfl]
  unfold clearEmpty
  rw [hkeep p.small fun image himage => h image (mem_images.2 (.inl himage)),
    hkeep p.normal fun image himage => h image (mem_images.2 (.inr (.inl himage))),
    hkeep p.large fun image himage => h image (mem_images.2 (.inr (.inr himage)))]

theorem PosterSet.isEmpty_eq_false {p : PosterSet} (hnonempty : p.images ≠ [])
    (h : ∀ image ∈ p.images, image.isEmpty = false) : p.isEmpty = false := by
  obtain ⟨image, himage⟩ := List.exists_mem_of_ne_nil _ hnonempty
  exact List.all_eq_false.2 ⟨image, himage, by simp [h image himage]⟩

namespace Artwork

/-! ## §2. Placed images. -/

/-- **The images stand where a merge would put them**: no highlight and no
poster is empty, every gallery image has an address of its own, and its file
is named by its position, in the directory that all images share. -/
structure Placed (a : Artwork) : Prop where
  covers : ∀ image ∈ a.covers, image.isEmpty = false
  fetchable : ∀ image ∈ a.gallery, image.source.isSome
  distinct : (a.gallery.map Image.url).Nodup
  named : ∀ entry ∈ a.gallery.zipIdx, entry.1.path
    = sharedDirectory (a.images.map Image.path) ++ galleryName entry.2
        ++ keptExtension entry.1.path

theorem mergeCovers_self {a : Artwork} (htidy : a.Tidy)
    (h : ∀ image ∈ a.covers, image.isEmpty = false) :
    mergeCovers a.highlight a.poster = { a with gallery := [] } := by
  have hhighlight : ∀ tag image, SortedMap.get? a.highlight tag = some image →
      image.isEmpty = false := by
    intro tag image himage
    exact h image (List.mem_append_left _ (SortedMap.mem_values_iff.2 ⟨tag, himage⟩))
  have hposter : ∀ tag posters, SortedMap.get? a.poster tag = some posters →
      ∀ image ∈ posters.images, image.isEmpty = false := by
    intro tag posters hposters image himage
    refine h image (List.mem_append_right _ (List.mem_flatMap.2 ⟨posters, ?_, himage⟩))
    exact SortedMap.mem_values_iff.2 ⟨tag, hposters⟩
  have hclear : SortedMap.map PosterSet.clearEmpty a.poster = a.poster :=
    SortedMap.map_eq_self.2 fun tag posters hposters =>
      PosterSet.clearEmpty_eq_self (hposter tag posters hposters)
  unfold mergeCovers
  rw [hclear, SortedMap.filter_eq_self, SortedMap.filter_eq_self]
  · intro tag posters hposters
    simp [PosterSet.isEmpty_eq_false (htidy.poster tag posters hposters).1
      (hposter tag posters hposters)]
  · intro tag image himage
    simp [hhighlight tag image himage]

/-! ## §3. The addresses of the gallery. -/

/-- No highlight loses its place to itself. -/
theorem displaced_self (highlight : Translated Image) (gallery : List Image) :
    displaced highlight gallery highlight = [] := by
  unfold displaced
  rw [List.filter_eq_nil_iff.2, List.map_nil]
  intro entry hentry
  rw [SortedMap.get?_of_mem_entries hentry]
  simp

/-- The address of an image that can be fetched. -/
theorem url_of_source {image : Image} {url : String} (h : image.source = some url) :
    image.url = some url := by
  unfold Image.source at h
  exact (Option.filter_eq_some_iff.1 h).1

theorem sources_cons {image : Image} {url : String} (h : image.source = some url)
    (rest : List Image) : sources (image :: rest) = (url, image.path) :: sources rest := by
  unfold sources
  rw [List.filterMap_cons, h, Option.map_some]

theorem sources_map_url {gallery : List Image} (h : ∀ image ∈ gallery, image.source.isSome) :
    ((sources gallery).map (·.1)).map some = gallery.map Image.url := by
  induction gallery with
  | nil => rfl
  | cons image rest ih =>
    obtain ⟨himage, hrest⟩ := List.forall_mem_cons.1 h
    obtain ⟨url, hurl⟩ := Option.isSome_iff_exists.1 himage
    rw [sources_cons hurl, List.map_cons, List.map_cons, List.map_cons, ih hrest,
      url_of_source hurl]

/-- Addresses that differ are all listed. -/
theorem foldl_addSource {known entries : List (String × String)}
    (h : ((known ++ entries).map (·.1)).Nodup) : entries.foldl addSource known = known ++ entries := by
  induction entries generalizing known with
  | nil => rw [List.append_nil, List.foldl_nil]
  | cons entry rest ih =>
    have hfresh : ¬ (known.any fun other => other.1 = entry.1) = true := by
      intro hany
      obtain ⟨other, hother, heq⟩ := List.any_eq_true.1 hany
      rw [List.map_append, List.map_cons] at h
      refine (List.nodup_append.1 h).2.2 other.1 (List.mem_map_of_mem hother) entry.1
        List.mem_cons_self (of_decide_eq_true heq)
    have hadd : addSource known entry = known ++ [entry] := if_neg hfresh
    rw [List.foldl_cons, hadd, ih, List.append_assoc]
    · rfl
    · rwa [List.append_assoc]

/-- A gallery whose files have their names already is built as it is. -/
theorem galleryOf_sources {directory : String} {pathOf : String → String} {gallery : List Image}
    (index : Nat) (hfetch : ∀ image ∈ gallery, image.source.isSome)
    (hpath : ∀ entry ∈ sources gallery, pathOf entry.1 = entry.2)
    (hnamed : ∀ entry ∈ gallery.zipIdx index, entry.1.path
      = directory ++ galleryName entry.2 ++ keptExtension entry.1.path) :
    galleryOf directory pathOf index ((sources gallery).map (·.1)) = gallery := by
  induction gallery generalizing index with
  | nil => rfl
  | cons image rest ih =>
    obtain ⟨himage, hrest⟩ := List.forall_mem_cons.1 hfetch
    obtain ⟨url, hurl⟩ := Option.isSome_iff_exists.1 himage
    rw [List.zipIdx_cons] at hnamed
    rw [sources_cons hurl] at hpath ⊢
    obtain ⟨hname, hnames⟩ := List.forall_mem_cons.1 hnamed
    obtain ⟨hpath, hpaths⟩ := List.forall_mem_cons.1 hpath
    rw [List.map_cons, galleryOf, hpath, ih (index + 1) hrest hpaths hnames, ← hname]
    show (⟨image.path, some url⟩ : Image) :: rest = image :: rest
    rw [← url_of_source hurl]

/-! ## §4. The merge. -/

/-- **Placed images merged with themselves stay what they are.** -/
theorem mergeImages_self {a : Artwork} (htidy : a.Tidy) (h : a.Placed) : mergeImages a a = a := by
  have hhighlight : (Merged.languages Image.merge a.highlight a.highlight).value = a.highlight := by
    rw [Merged.languages_self Image.merge_self]
    rfl
  have hposter : (Merged.languages PosterSet.merge a.poster a.poster).value = a.poster := by
    rw [Merged.languages_self PosterSet.merge_self]
    rfl
  have hkeys : ((sources a.gallery).map (·.1)).Nodup := by
    have hdistinct := h.distinct
    rw [← sources_map_url h.fetchable] at hdistinct
    exact hdistinct.of_map _
  -- No highlight is displaced, so the gallery lists its own addresses in their order.
  have hbase : galleryBase a.highlight a a = sources a.gallery := by
    unfold galleryBase
    rw [displaced_self, List.nil_append, foldl_addSource (by simpa using hkeys), List.nil_append]
  have hpath : ∀ entry ∈ sources a.gallery,
      (Entries.get? entry.1 (sources a.gallery ++ sources a.gallery)).getD "" = entry.2 := by
    intro entry hentry
    rw [Entries.get?_append, Entries.get?_of_mem hkeys hentry]
    rfl
  unfold mergeImages
  simp only [hhighlight, hposter, hbase, mergeCovers_self htidy h.covers]
  rw [WeaveRule.texts.mergeLists_self fun text _ => WeaveRule.texts_keepsItself text,
    galleryOf_sources 0 h.fetchable hpath]
  exact h.named

theorem mem_galleryFiles {gallery : List Image} {path : String} :
    path ∈ galleryFiles gallery ↔ path ≠ "" ∧ path ∈ gallery.map Image.path := by
  unfold galleryFiles
  rw [SortedMap.mem_keys_iff]
  simp only [SortedMap.get?_ofList]
  constructor
  · rintro ⟨value, hget⟩
    obtain ⟨image, himage, heq⟩ := List.mem_map.1 (List.mem_reverse.1 (Entries.mem_of_get? hget))
    obtain ⟨hmem, hpath⟩ := List.mem_filter.1 himage
    obtain rfl : image.path = path := congrArg Prod.fst heq
    exact ⟨of_decide_eq_true hpath, List.mem_map_of_mem hmem⟩
  · rintro ⟨hpath, hmem⟩
    obtain ⟨image, himage, rfl⟩ := List.mem_map.1 hmem
    refine Option.ne_none_iff_exists'.1 fun hnone => ?_
    have hlisted : (image.path, ()) ∈ (gallery.filter fun image => image.path ≠ "").map
        fun image => (image.path, ()) :=
      List.mem_map.2 ⟨image, List.mem_filter.2 ⟨himage, decide_eq_true hpath⟩, rfl⟩
    exact Entries.get?_eq_none_iff.1 hnone _ (List.mem_reverse.2 hlisted) rfl

/-- What has to be fetched is never a removal. -/
theorem remove_not_mem_fetches (images : List Image) (path : String) :
    .remove path ∉ fetches images := by
  intro hmem
  obtain ⟨image, _, himage⟩ := List.mem_filterMap.1 hmem
  split at himage
  · cases himage
  · obtain ⟨url, _, hop⟩ := Option.map_eq_some_iff.1 himage
    cases hop

/-- **What a plan removes**: the files of the stored gallery that no image of the
merged gallery has. -/
theorem remove_mem_plan_iff {stored merged : Artwork} {path : String} :
    .remove path ∈ plan stored merged ↔
      path ≠ "" ∧ path ∈ stored.gallery.map Image.path ∧ path ∉ merged.gallery.map Image.path := by
  have hused : (merged.gallery.any fun image => image.path = path) = false
      ↔ path ∉ merged.gallery.map Image.path := by simp
  have hunused : path ∈ unusedFiles stored.gallery merged.gallery
      ↔ path ∈ galleryFiles stored.gallery ∧ path ∉ merged.gallery.map Image.path := by
    unfold unusedFiles
    rw [List.mem_filter, Bool.not_eq_true', hused]
  unfold plan
  rw [List.mem_append, or_iff_left (remove_not_mem_fetches _ path)]
  simp only [List.mem_map, ImageOp.remove.injEq, exists_eq_right] at hunused ⊢
  rw [hunused, mem_galleryFiles, and_assoc, List.mem_map]

/-- No gallery file loses its image. -/
theorem remove_not_mem_plan_self (a : Artwork) (path : String) : .remove path ∉ plan a a :=
  fun hmem =>
    have ⟨_, hstored, hmerged⟩ := remove_mem_plan_iff.1 hmem
    hmerged hstored

end Artwork

end FilmCatalog
