/-
  FilmCatalog.Proofs.Artwork.Gallery
  ──────────────────────────────────
  **WHICH IMAGES A MERGED GALLERY HOLDS.**

  A merge builds the gallery anew from addresses.  They come from three lists,
  each with its own test, and after the highlights were merged:

      displaced highlights ++ stored gallery ++ what the incoming gallery adds

  The first two are the *base*, where no address comes twice.  Of the incoming
  gallery, one of each address in the base is left out, the first one.  So

    • no address of either gallery and no incoming highlight is lost, and no two
      files have the same path (`gallery_merge`),
    • an address that the incoming gallery repeats is repeated afterwards
      (`distinct_merge_iff`, `repeated_address_stays`).
-/
import FilmCatalog.Proofs.Artwork.Stability

namespace FilmCatalog.Artwork

/-! ## §1. Addresses. -/

/-- The addresses of some images, without missing and empty ones. -/
def urlsOf (images : List Image) : List String :=
  images.filterMap fun image => image.url.filter (· ≠ "")

/-- The addresses of a gallery. -/
def galleryUrls (a : Artwork) : List String := urlsOf a.gallery

/-- The address of the highlight for a language, if it has one that is not the
empty text. -/
def highlightUrl? (highlight : Translated Image) (tag : String) : Option String :=
  (SortedMap.get? highlight tag).bind fun image => image.url.filter (· ≠ "")

/-- The addresses are those that the images can be fetched from. -/
theorem urlsOf_eq (images : List Image) : urlsOf images = images.filterMap Image.source := rfl

theorem map_fst_sources (images : List Image) : (sources images).map (·.1) = urlsOf images := by
  unfold sources
  rw [List.map_filterMap, urlsOf_eq]
  refine List.filterMap_congr fun image _ => ?_
  cases image.source with
  | none => rfl
  | some url => rfl

theorem mem_urlsOf {images : List Image} {url : String} :
    url ∈ urlsOf images ↔ ∃ image ∈ images, image.source = some url := by
  rw [urlsOf_eq]
  exact List.mem_filterMap

/-- **Listing addresses one by one drops the later of equal ones.** -/
theorem map_fst_foldl_addSource (entries : List (String × String)) :
    (entries.foldl addSource []).map (·.1) = (entries.map (·.1)).eraseDups := by
  -- From the right: one more address is added unless it is listed.
  induction entries using List.reverseRecOn with
  | nil => rfl
  | append_singleton rest entry ih =>
    rw [List.foldl_append, List.foldl_cons, List.foldl_nil, List.map_append, List.map_singleton,
      List.eraseDups_append, ← ih]
    by_cases hlisted : entry.1 ∈ rest.map (·.1)
    · have hknown : entry.1 ∈ (rest.foldl addSource []).map (·.1) :=
        mem_foldl_addSource.2 (.inr hlisted)
      rw [addSource_of_mem hknown]
      simp [List.removeAll, hlisted]
    · have hnew : ¬ ((rest.foldl addSource []).any fun other => other.1 = entry.1) = true := by
        intro hany
        obtain ⟨other, hother, heq⟩ := List.any_eq_true.1 hany
        have hmem := mem_foldl_addSource.1 (List.mem_map_of_mem hother)
        rw [of_decide_eq_true heq] at hmem
        exact hlisted (hmem.resolve_left (by simp))
      have hadd : addSource (rest.foldl addSource []) entry = rest.foldl addSource [] ++ [entry] :=
        if_neg hnew
      rw [hadd, List.map_append, List.map_singleton]
      simp [List.removeAll, hlisted, List.eraseDups_cons]

/-! ## §2. The base. -/

/-- **The highlights that lost their place**, by their addresses: in the order of
languages and without repetition, the incoming ones that are neither the
highlight of their language after the merge nor in the stored gallery. -/
def displacedUrls (highlight : Translated Image) (stored incoming : Artwork) : List String :=
  (incoming.highlight.entries.filterMap fun entry => entry.2.url.filter fun url =>
    url ≠ "" ∧ highlightUrl? highlight entry.1 ≠ some url ∧ url ∉ galleryUrls stored).eraseDups

theorem displacedUrls_eq (highlight : Translated Image) (stored incoming : Artwork) :
    displacedUrls highlight stored incoming
      = (incoming.highlight.entries.filterMap fun entry => entry.2.source.filter fun url =>
          highlightUrl? highlight entry.1 ≠ some url ∧ url ∉ galleryUrls stored).eraseDups := by
  unfold displacedUrls Image.source
  congr 1
  refine List.filterMap_congr fun entry _ => ?_
  rw [Option.filter_filter]
  simp only [Bool.decide_and]

/-- **What a merged gallery starts with**: highlights that lost their place, then
the stored gallery without repetition. -/
def baseUrls (stored incoming : Artwork) : List String :=
  displacedUrls (stored.merge incoming).value.highlight stored incoming
    ++ (galleryUrls stored).eraseDups

/-- Highlights that can be fetched are not dropped. -/
theorem highlightUrl?_mergeImages (stored incoming : Artwork) (tag : String) :
    highlightUrl? (mergeImages stored incoming).highlight tag
      = highlightUrl? (Merged.languages Image.merge stored.highlight incoming.highlight).value tag := by
  show (SortedMap.get? (SortedMap.filter _ _) tag).bind _ = _
  unfold highlightUrl?
  rw [SortedMap.get?_filter]
  cases SortedMap.get? (Merged.languages Image.merge stored.highlight incoming.highlight).value tag with
  | none => rfl
  | some image =>
    rw [Option.filter_some]
    split
    · rfl
    · -- What is dropped has no address.
      rename_i hdropped
      have hmissing : image.source = Option.none := by
        cases hsource : image.source with
        | none => rfl
        | some url =>
          have hfilled := Image.isEmpty_of_source (Option.isSome_iff_exists.2 ⟨url, hsource⟩)
          exact absurd (by rw [hfilled]; rfl) hdropped
      exact hmissing.symm

theorem urlsOf_displaced (highlight : Translated Image) (stored incoming : Artwork) :
    (urlsOf (displaced highlight stored.gallery incoming.highlight)).eraseDups
      = displacedUrls highlight stored incoming := by
  unfold displaced
  rw [displacedUrls_eq, urlsOf_eq]
  congr 1
  rw [List.filterMap_map, List.filterMap_filter]
  refine List.filterMap_congr fun entry _ => ?_
  cases hsource : entry.2.source with
  | none => simp [hsource]
  | some url =>
    have hstored : (stored.gallery.any fun image => image.source = some url) = true ↔
        url ∈ galleryUrls stored := by
      unfold galleryUrls
      rw [mem_urlsOf, List.any_eq_true]
      simp only [decide_eq_true_eq]
    simp only [Function.comp_apply, hsource]
    rw [Option.filter_some]
    refine if_congr ?_ rfl rfl
    rw [Bool.and_eq_true, Bool.not_eq_true', ← Bool.not_eq_true, hstored, decide_eq_true_eq,
      decide_eq_true_eq, ne_comm]
    rfl

/-- What loses its place is not in the stored gallery. -/
theorem not_mem_of_displacedUrls {highlight : Translated Image} {stored incoming : Artwork}
    {url : String} (h : url ∈ displacedUrls highlight stored incoming) : url ∉ galleryUrls stored := by
  obtain ⟨entry, _, hentry⟩ := List.mem_filterMap.1 (List.mem_eraseDups.1 h)
  exact (of_decide_eq_true (Option.filter_eq_some_iff.1 hentry).2).2.2

/-- **The base of a merged gallery.** -/
theorem map_fst_galleryBase (stored incoming : Artwork) :
    (galleryBase (Merged.languages Image.merge stored.highlight incoming.highlight).value stored
      incoming).map (·.1) = baseUrls stored incoming := by
  have hafter : displacedUrls (stored.merge incoming).value.highlight stored incoming
      = displacedUrls (Merged.languages Image.merge stored.highlight incoming.highlight).value stored
          incoming := by
    unfold displacedUrls
    rw [value_merge]
    simp only [highlightUrl?_mergeImages]
  unfold baseUrls galleryBase
  rw [hafter, map_fst_foldl_addSource, map_fst_sources]
  generalize (Merged.languages Image.merge stored.highlight incoming.highlight).value = highlight
  -- The two parts have nothing in common, so each of them keeps its own first addresses.
  have hapart : (galleryUrls stored).removeAll
      (urlsOf (displaced highlight stored.gallery incoming.highlight)) = galleryUrls stored := by
    refine List.filter_eq_self.2 fun url hurl => ?_
    have hnot : url ∉ urlsOf (displaced highlight stored.gallery incoming.highlight) := by
      intro hmem
      rw [← List.mem_eraseDups, urlsOf_displaced] at hmem
      exact not_mem_of_displacedUrls hmem hurl
    simp [hnot]
  have happend : urlsOf (displaced highlight stored.gallery incoming.highlight ++ stored.gallery)
      = urlsOf (displaced highlight stored.gallery incoming.highlight) ++ galleryUrls stored :=
    List.filterMap_append
  rw [happend, List.eraseDups_append, hapart, urlsOf_displaced]

/-! ## §3. The merged gallery. -/

theorem map_url_mergeImages (stored incoming : Artwork) :
    (mergeImages stored incoming).gallery.map Image.url
      = (WeaveRule.texts.mergeLists (baseUrls stored incoming) (galleryUrls incoming)).map some := by
  unfold mergeImages
  simp only [map_url_galleryOf]
  rw [map_fst_galleryBase, map_fst_sources]
  rfl

/-- **No two files of a gallery have the same path.** -/
theorem nodup_paths_galleryOf (directory : String) (pathOf : String → String) (index : Nat)
    (urls : List String) : ((galleryOf directory pathOf index urls).map Image.path).Nodup := by
  rw [galleryOf_eq, List.map_map]
  refine List.pairwise_map.2 ((WeaveRule.pairwise_zipIdx urls index).imp ?_)
  intro a b hlt hpath
  have hsame := index_of_path (isExtension_keptExtension _) (isExtension_keptExtension _) hpath
  omega

/-- All addresses of a merged gallery can be fetched. -/
theorem galleryUrls_mergeImages (stored incoming : Artwork) :
    galleryUrls (mergeImages stored incoming)
      = WeaveRule.texts.mergeLists (baseUrls stored incoming) (galleryUrls incoming) := by
  obtain ⟨pathOf, urls, hurls, hgallery⟩ := exists_gallery_mergeImages stored incoming
  have hlisted : galleryUrls (mergeImages stored incoming) = urls := by
    unfold galleryUrls
    rw [hgallery, ← map_fst_sources, sources_galleryOf hurls]
  have hurl := map_url_mergeImages stored incoming
  rw [hgallery, map_url_galleryOf] at hurl
  rw [hlisted]
  exact List.map_injective_iff.2 (fun _ _ => Option.some.inj) hurl

/-- Whatever is in the base or in the incoming gallery is in the merged one. -/
theorem mem_galleryUrls_merge {stored incoming : Artwork} {url : String} :
    url ∈ galleryUrls (mergeImages stored incoming) ↔
      url ∈ baseUrls stored incoming ∨ url ∈ galleryUrls incoming := by
  have hcount := WeaveRule.count_mergeLists_texts url (baseUrls stored incoming)
    (galleryUrls incoming)
  rw [galleryUrls_mergeImages, ← List.count_pos_iff, hcount, ← List.count_pos_iff,
    ← List.count_pos_iff]
  omega

theorem mem_baseUrls_of_stored {stored : Artwork} (incoming : Artwork) {url : String}
    (h : url ∈ galleryUrls stored) : url ∈ baseUrls stored incoming :=
  List.mem_append_right _ (List.mem_eraseDups.2 h)

/-- An incoming highlight is the highlight of its language afterwards, or it
stands in the base. -/
theorem highlightUrl?_or_mem_baseUrls {stored incoming : Artwork} {tag url : String}
    (h : highlightUrl? incoming.highlight tag = some url) :
    highlightUrl? (stored.merge incoming).value.highlight tag = some url ∨
      url ∈ baseUrls stored incoming := by
  obtain ⟨image, himage, hsource⟩ := Option.bind_eq_some_iff.1 h
  by_cases hplace : highlightUrl? (stored.merge incoming).value.highlight tag = some url
  · exact .inl hplace
  · by_cases hstored : url ∈ galleryUrls stored
    · exact .inr (mem_baseUrls_of_stored incoming hstored)
    · -- Neither in its place nor in the gallery, so it is displaced.
      refine .inr (List.mem_append_left _ (List.mem_eraseDups.2 ?_))
      refine List.mem_filterMap.2 ⟨(tag, image), SortedMap.mem_entries_iff.2 himage, ?_⟩
      obtain ⟨hurl, hne⟩ := Image.source_eq_some_iff.1 hsource
      exact Option.filter_eq_some_iff.2 ⟨hurl, decide_eq_true ⟨hne, hplace, hstored⟩⟩

/-- **The gallery after a merge.**  Its addresses are those of the base, and then
what the incoming gallery has more; so no address of a gallery is lost, and an
incoming highlight takes its place or goes to the gallery.  No two files have
the same path. -/
theorem gallery_merge (stored incoming : Artwork) :
    (stored.merge incoming).value.gallery.map Image.url
        = (baseUrls stored incoming
            ++ (galleryUrls incoming).diff (baseUrls stored incoming)).map some ∧
      (∀ url, url ∈ galleryUrls stored ∨ url ∈ galleryUrls incoming →
        url ∈ galleryUrls (stored.merge incoming).value) ∧
      (∀ tag url, highlightUrl? incoming.highlight tag = some url →
        highlightUrl? (stored.merge incoming).value.highlight tag = some url ∨
          url ∈ galleryUrls (stored.merge incoming).value) ∧
      ((stored.merge incoming).value.gallery.map Image.path).Nodup := by
  refine ⟨?_, ?_, ?_, ?_⟩
  · rw [value_merge, map_url_mergeImages, WeaveRule.mergeLists_texts_eq]
  · intro url hurl
    rw [value_merge, mem_galleryUrls_merge]
    exact hurl.imp_left (mem_baseUrls_of_stored incoming)
  · intro tag url hurl
    refine (highlightUrl?_or_mem_baseUrls hurl).imp_right fun hbase => ?_
    rw [value_merge, mem_galleryUrls_merge]
    exact .inl hbase
  · exact nodup_paths_galleryOf _ _ 0 _

/-! ## §4. Repeated addresses. -/

/-- No address comes twice in the base. -/
theorem nodup_baseUrls (stored incoming : Artwork) : (baseUrls stored incoming).Nodup := by
  rw [← map_fst_galleryBase]
  exact nodup_foldl_addSource (by simp) _

theorem nodup_gallery_iff (stored incoming : Artwork) :
    ((stored.merge incoming).value.gallery.map Image.url).Nodup ↔ (galleryUrls incoming).Nodup := by
  have hbase := List.nodup_iff_count.1 (nodup_baseUrls stored incoming)
  have hsome : Function.Injective (some : String → Option String) := fun _ _ => Option.some.inj
  rw [value_merge, map_url_mergeImages, List.nodup_map_iff hsome, List.nodup_iff_count,
    List.nodup_iff_count]
  refine forall_congr' fun url => ?_
  have honce := hbase url
  rw [WeaveRule.count_mergeLists_texts]
  omega

/-- **When a merged gallery has no duplicates.**  An address of the base comes
once, unless the incoming gallery has it more often, and any other as often as
there.  So the addresses of the merged gallery differ exactly if those of the
incoming one do; what the stored gallery repeats is mended. -/
theorem distinct_merge_iff (stored incoming : Artwork) :
    (∀ url, (galleryUrls (stored.merge incoming).value).count url
      = max (if url ∈ baseUrls stored incoming then 1 else 0) ((galleryUrls incoming).count url)) ∧
    (((stored.merge incoming).value.gallery.map Image.url).Nodup ↔
      (galleryUrls incoming).Nodup) := by
  refine ⟨fun url => ?_, nodup_gallery_iff stored incoming⟩
  rw [value_merge, galleryUrls_mergeImages, WeaveRule.count_mergeLists_texts]
  congr 1
  exact (nodup_baseUrls stored incoming).count

/-- A document with a gallery that lists an address twice. -/
def repeatingDocument : Json :=
  .object [("gallery",
    .array [.string "https://example.org/b.jpg", .string "https://example.org/b.jpg"])]

/-- **An address that comes in twice is listed twice**: repetitions of the stored
gallery go with the base, but nothing removes those of the incoming one. -/
theorem repeated_address_stays :
    (ofJson loneDocument).result = .ok .unchanged ∧
    (ofJson repeatingDocument).result = .ok .unchanged ∧
    ¬ (((ofJson loneDocument).value.merge (ofJson repeatingDocument).value).value.gallery.map
        Image.url).Nodup := by
  refine ⟨by decide +kernel, by decide +kernel, ?_⟩
  rw [nodup_gallery_iff]
  decide +kernel

end FilmCatalog.Artwork
