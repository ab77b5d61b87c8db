/-
  FilmCatalog.Proofs.Artwork.Stability
  ────────────────────────────────────
  **WHEN MERGED IMAGES STAY WHAT THEY ARE.**

  A merge gives names to the files of the gallery.  Merged with themselves, the
  images that it leaves should not change any more.  Highlights and posters do
  not.  The gallery is built anew, with the extensions that it has, but

    • from its addresses, each listed once before any comes again
      (`RepeatsLast`),
    • in the directory that is looked for anew (`FoundAgain`),

  and it stays exactly if both give what was there (`merged_stable_iff`).  A
  lone image of a gallery shows how that fails (`lone_gallery_moves`).
-/
import FilmCatalog.Proofs.Artwork.Directories
import FilmCatalog.Proofs.Artwork.Keeping

namespace FilmCatalog

/-! ## §1. Highlights and posters. -/

namespace PosterSet

theorem keepFilled_keepFilled (size : Option Image) : keepFilled (keepFilled size) = keepFilled size := by
  unfold keepFilled
  rw [Option.filter_filter]
  simp

/-- Posters without empty images stay as they are. -/
theorem clearEmpty_clearEmpty (p : PosterSet) : p.clearEmpty.clearEmpty = p.clearEmpty := by
  unfold clearEmpty
  simp only [keepFilled_keepFilled]

end PosterSet

namespace Artwork

/-- What is cleared of empty images has none to clear. -/
theorem mergeCovers_again (highlight : Translated Image) (poster : Translated PosterSet) :
    mergeCovers (mergeCovers highlight poster).highlight (mergeCovers highlight poster).poster
      = mergeCovers highlight poster := by
  have hposter : ∀ tag posters, SortedMap.get? (mergeCovers highlight poster).poster tag = some posters →
      posters.clearEmpty = posters ∧ posters.isEmpty = false := by
    intro tag posters hposters
    unfold mergeCovers at hposters
    rw [SortedMap.get?_filter, SortedMap.get?_map] at hposters
    obtain ⟨hcleared, hfilled⟩ := Option.filter_eq_some_iff.1 hposters
    obtain ⟨old, _, rfl⟩ := Option.map_eq_some_iff.1 hcleared
    exact ⟨PosterSet.clearEmpty_clearEmpty old, by simpa using hfilled⟩
  have hclear : SortedMap.map PosterSet.clearEmpty (mergeCovers highlight poster).poster
      = (mergeCovers highlight poster).poster :=
    SortedMap.map_eq_self.2 fun tag posters hposters => (hposter tag posters hposters).1
  show Artwork.mk (SortedMap.filter _ (mergeCovers highlight poster).highlight)
    (SortedMap.filter _ (SortedMap.map _ (mergeCovers highlight poster).poster)) [] = _
  rw [hclear, SortedMap.filter_eq_self, SortedMap.filter_eq_self]
  · rfl
  · intro tag posters hposters
    simp [(hposter tag posters hposters).2]
  · intro tag image himage
    unfold mergeCovers at himage
    rw [SortedMap.get?_filter] at himage
    exact (Option.filter_eq_some_iff.1 himage).2

/-! ## §2. Galleries that a merge built. -/

section Galleries

variable {directory other : String} {pathOf pathAgain : String → String} {index : Nat}
  {urls : List String}

theorem source_of_url {path url : String} (h : url ≠ "") : (Image.mk path (some url)).source = some url := by
  unfold Image.source
  simp [h]

/-- No source has the empty text for its address. -/
theorem sources_filled {images : List Image} {url : String} (h : url ∈ (sources images).map (·.1)) :
    url ≠ "" := by
  obtain ⟨entry, hentry, rfl⟩ := List.mem_map.1 h
  obtain ⟨image, _, himage⟩ := List.mem_filterMap.1 hentry
  obtain ⟨url, hurl, rfl⟩ := Option.map_eq_some_iff.1 himage
  unfold Image.source at hurl
  simpa using (Option.filter_eq_some_iff.1 hurl).2

/-- The sources of a gallery are the addresses that it was built from. -/
theorem sources_galleryOf (hurls : ∀ url ∈ urls, url ≠ "") :
    (sources (galleryOf directory pathOf index urls)).map (·.1) = urls := by
  induction urls generalizing index with
  | nil => rfl
  | cons url rest ih =>
    obtain ⟨hurl, hrest⟩ := List.forall_mem_cons.1 hurls
    rw [galleryOf, sources_cons (source_of_url hurl), List.map_cons, ih hrest]

/-- The file of an image of the gallery. -/
theorem path_of_mem_galleryOf {image : Image} (h : image ∈ galleryOf directory pathOf index urls) :
    ∃ url ∈ urls, ∃ place, image
      = ⟨directory ++ galleryName place ++ keptExtension (pathOf url), some url⟩ := by
  rw [galleryOf_eq] at h
  obtain ⟨entry, hentry, rfl⟩ := List.mem_map.1 h
  exact ⟨entry.1, List.fst_mem_of_mem_zipIdx hentry, entry.2, rfl⟩

/-- The names of the files of a gallery. -/
def fileNames (pathOf : String → String) (index : Nat) (urls : List String) : List String :=
  (galleryOf "" pathOf index urls).map Image.path

/-- The names that a gallery gives are names of files. -/
theorem namesFile_fileNames {name : String} (h : name ∈ fileNames pathOf index urls) :
    NamesFile name.toList := by
  obtain ⟨image, himage, rfl⟩ := List.mem_map.1 h
  obtain ⟨url, _, place, rfl⟩ := path_of_mem_galleryOf himage
  rw [String.empty_append]
  exact namesFile_append (namesFile_galleryName place).1 (isExtension_keptExtension _)

/-- The paths of a gallery are the names of its files in one directory. -/
theorem map_path_galleryOf (directory : String) (pathOf : String → String) (index : Nat)
    (urls : List String) :
    (galleryOf directory pathOf index urls).map Image.path
      = (fileNames pathOf index urls).map (directory ++ ·) := by
  induction urls generalizing index with
  | nil => rfl
  | cons url rest ih =>
    unfold fileNames at ih ⊢
    rw [galleryOf, galleryOf]
    simp only [List.map_cons, ih, String.append_assoc, String.empty_append]

/-- The directory of a gallery that a merge built next to some images. -/
theorem sharedDirectory_gallery_iff {covers stored : List Image} (hurls : urls ≠ []) :
    sharedDirectory ((covers ++ galleryOf (sharedDirectory ((covers ++ stored).map Image.path))
        pathOf index urls).map Image.path)
      = sharedDirectory ((covers ++ stored).map Image.path) ↔
    FoundAgain (covers.map Image.path) (sharedDirectory ((covers ++ stored).map Image.path)) := by
  have hnames : fileNames pathOf index urls ≠ [] := by
    obtain ⟨url, rest, rfl⟩ := List.exists_cons_of_ne_nil hurls
    simp [fileNames, galleryOf]
  simp only [List.map_append, map_path_galleryOf]
  exact sharedDirectory_again hnames fun name => namesFile_fileNames

/-- **Galleries with the same addresses and extensions are the same if their
directories are.** -/
theorem galleryOf_eq_iff
    (hkept : ∀ url ∈ urls, keptExtension (pathAgain url) = keptExtension (pathOf url)) :
    galleryOf other pathAgain index urls = galleryOf directory pathOf index urls ↔
      urls = [] ∨ other = directory := by
  constructor
  · intro h
    cases urls with
    | nil => exact .inl rfl
    | cons url rest =>
      have hpath := congrArg Image.path (List.cons.inj h).1
      simp only [hkept url List.mem_cons_self, String.append_assoc] at hpath
      exact .inr ((String.append_left_inj _).1 hpath)
  · rintro (rfl | rfl)
    · rfl
    · induction urls generalizing index with
      | nil => rfl
      | cons url rest ih =>
        obtain ⟨hurl, hrest⟩ := List.forall_mem_cons.1 hkept
        rw [galleryOf, galleryOf, hurl, ih hrest]

/-- **Whoever looks up a path in a gallery finds the extension that the gallery
was built with.** -/
theorem keptExtension_lookup
    (hdirectory : directory.toList = [] ∨ directory.toList.getLast? = some '/')
    {known : List (String × String)}
    (hknown : ∀ entry ∈ known, entry ∈ sources (galleryOf directory pathOf index urls))
    {url : String} (hurl : url ∈ known.map (·.1)) :
    keptExtension ((Entries.get? url known).getD "") = keptExtension (pathOf url) := by
  cases hget : Entries.get? url known with
  | none =>
    obtain ⟨entry, hentry, hsame⟩ := List.mem_map.1 hurl
    exact absurd hsame (Entries.get?_eq_none_iff.1 hget entry hentry)
  | some path =>
    obtain ⟨image, himage, hentry⟩ :=
      List.mem_filterMap.1 (hknown _ (Entries.mem_of_get? hget))
    obtain ⟨found, _, place, rfl⟩ := path_of_mem_galleryOf himage
    obtain ⟨source, hsource, hsame⟩ := Option.map_eq_some_iff.1 hentry
    cases hsame
    cases url_of_source hsource
    exact keptExtension_named place hdirectory (isExtension_keptExtension _)

end Galleries

/-! ## §3. Repeated addresses. -/

/-- No address comes again before all of them came once. -/
def RepeatsLast {α : Type} (urls : List α) : Prop :=
  ∃ firsts repeats, urls = firsts ++ repeats ∧ firsts.Nodup ∧ ∀ url ∈ repeats, url ∈ firsts

theorem repeatsLast_map_some {urls : List String} :
    RepeatsLast (urls.map some) ↔ RepeatsLast urls := by
  have hsome : Function.Injective (some : String → Option String) := fun _ _ => Option.some.inj
  constructor
  · rintro ⟨firsts, repeats, hurls, hfirsts, hrepeats⟩
    obtain ⟨first, rest, rfl, rfl, rfl⟩ := List.map_eq_append_iff.1 hurls
    refine ⟨first, rest, rfl, hfirsts.of_map _, fun url hurl => ?_⟩
    exact (List.mem_map_of_injective hsome).1 (hrepeats _ (List.mem_map_of_mem hurl))
  · rintro ⟨firsts, repeats, rfl, hfirsts, hrepeats⟩
    refine ⟨firsts.map some, repeats.map some, List.map_append, hfirsts.map hsome, fun url hurl => ?_⟩
    obtain ⟨text, htext, rfl⟩ := List.mem_map.1 hurl
    exact List.mem_map_of_mem (hrepeats text htext)

/-- A known address is not added again. -/
theorem addSource_of_mem {known : List (String × String)} {entry : String × String}
    (h : entry.1 ∈ known.map (·.1)) : addSource known entry = known := by
  obtain ⟨other, hother, hsame⟩ := List.mem_map.1 h
  exact if_pos (List.any_eq_true.2 ⟨other, hother, decide_eq_true hsame⟩)

/-- Addresses that are listed already add nothing. -/
theorem foldl_addSource_of_mem {known entries : List (String × String)}
    (h : ∀ entry ∈ entries, entry.1 ∈ known.map (·.1)) : entries.foldl addSource known = known := by
  induction entries with
  | nil => rfl
  | cons entry rest ih =>
    obtain ⟨hentry, hrest⟩ := List.forall_mem_cons.1 h
    rw [List.foldl_cons, addSource_of_mem hentry, ih hrest]

/-- Every source was there before or came in. -/
theorem mem_of_mem_foldl_addSource {known entries : List (String × String)} {entry : String × String}
    (h : entry ∈ entries.foldl addSource known) : entry ∈ known ∨ entry ∈ entries := by
  induction entries generalizing known with
  | nil => exact .inl h
  | cons first rest ih =>
    rcases ih h with hknown | hrest
    · unfold addSource at hknown
      split at hknown
      · exact .inl hknown
      · rcases List.mem_append.1 hknown with hknown | hfirst
        · exact .inl hknown
        · exact .inr (List.mem_singleton.1 hfirst ▸ List.mem_cons_self)
    · exact .inr (List.mem_cons_of_mem _ hrest)

/-- No address is among the sources twice. -/
theorem nodup_foldl_addSource {known : List (String × String)} (h : (known.map (·.1)).Nodup)
    (entries : List (String × String)) : ((entries.foldl addSource known).map (·.1)).Nodup := by
  induction entries generalizing known with
  | nil => exact h
  | cons entry rest ih =>
    refine ih ?_
    by_cases hknown : entry.1 ∈ known.map (·.1)
    · rwa [addSource_of_mem hknown]
    · have hnodup : ((known ++ [entry]).map (·.1)).Nodup := by
        rw [List.map_append, List.map_singleton]
        exact List.nodup_append.2 ⟨h, List.nodup_singleton _, fun a ha b hb hab =>
          hknown (List.mem_singleton.1 hb ▸ hab ▸ ha)⟩
      unfold addSource
      split
      · exact h
      · exact hnodup

/-- **A gallery whose repeated addresses come last keeps its order**, and no
other one does. -/
theorem mergeLists_listed_iff (entries : List (String × String)) :
    WeaveRule.texts.mergeLists ((entries.foldl addSource []).map (·.1)) (entries.map (·.1))
      = entries.map (·.1) ↔ RepeatsLast (entries.map (·.1)) := by
  constructor
  · intro h
    rw [WeaveRule.mergeLists_texts_eq] at h
    have hnodup : ((entries.foldl addSource []).map (·.1)).Nodup :=
      nodup_foldl_addSource (by simp) entries
    refine ⟨_, _, h.symm, hnodup, fun url hurl => ?_⟩
    -- Whatever is added was in the gallery, and all of that is listed.
    refine mem_foldl_addSource.2 (.inr ?_)
    rw [← h]
    exact List.mem_append_right _ hurl
  · rintro ⟨firsts, repeats, hurls, hfirsts, hrepeats⟩
    obtain ⟨first, rest, rfl, rfl, rfl⟩ := List.map_eq_append_iff.1 hurls
    have hfirst : first.foldl addSource [] = first := foldl_addSource (by simpa using hfirsts)
    have hlisted : (first ++ rest).foldl addSource [] = first := by
      rw [List.foldl_append, hfirst]
      exact foldl_addSource_of_mem fun entry hentry => hrepeats _ (List.mem_map_of_mem hentry)
    rw [hlisted, List.map_append, WeaveRule.mergeLists_texts_append]

/-! ## §4. The merge of a merged artwork with itself. -/

section SelfMerge

variable {a : Artwork} {directory : String} {pathOf : String → String} {urls : List String}

/-- Images with a gallery that was built, merged with themselves: highlights
and posters stay, and the gallery keeps its extensions. -/
theorem exists_mergeImages_self
    (hcovers : mergeCovers a.highlight a.poster = { a with gallery := [] })
    (hgallery : a.gallery = galleryOf directory pathOf 0 urls) (hurls : ∀ url ∈ urls, url ≠ "")
    (hdirectory : directory.toList = [] ∨ directory.toList.getLast? = some '/') :
    ∃ pathAgain, (∀ url ∈ urls, keptExtension (pathAgain url) = keptExtension (pathOf url)) ∧
      mergeImages a a = ⟨a.highlight, a.poster,
        galleryOf (sharedDirectory (a.images.map Image.path)) pathAgain 0
          (WeaveRule.texts.mergeLists (((sources a.gallery).foldl addSource []).map (·.1)) urls)⟩ := by
  have hhighlight : (Merged.languages Image.merge a.highlight a.highlight).value = a.highlight := by
    rw [Merged.languages_self Image.merge_self]
    rfl
  have hposter : (Merged.languages PosterSet.merge a.poster a.poster).value = a.poster := by
    rw [Merged.languages_self PosterSet.merge_self]
    rfl
  have hbase : galleryBase a.highlight a a = (sources a.gallery).foldl addSource [] := by
    unfold galleryBase
    rw [displaced_self, List.nil_append]
  have hkeys : (sources a.gallery).map (·.1) = urls := by
    rw [hgallery]
    exact sources_galleryOf hurls
  refine ⟨fun url => (Entries.get? url
    ((sources a.gallery).foldl addSource [] ++ sources a.gallery)).getD "", ?_, ?_⟩
  · intro url hurl
    have hknown : ∀ entry ∈ (sources a.gallery).foldl addSource [] ++ sources a.gallery,
        entry ∈ sources (galleryOf directory pathOf 0 urls) := by
      intro entry hentry
      rw [← hgallery]
      rcases List.mem_append.1 hentry with hlisted | hentry
      · exact (mem_of_mem_foldl_addSource hlisted).resolve_left List.not_mem_nil
      · exact hentry
    refine keptExtension_lookup hdirectory hknown ?_
    rw [List.map_append, hkeys]
    exact List.mem_append_right _ hurl
  · unfold mergeImages
    simp only [hhighlight, hposter, hbase, hcovers, hkeys]
    rfl

/-- **When images with a gallery that was built stay what they are.** -/
theorem mergeImages_self_iff
    (hcovers : mergeCovers a.highlight a.poster = { a with gallery := [] })
    (hgallery : a.gallery = galleryOf directory pathOf 0 urls) (hurls : ∀ url ∈ urls, url ≠ "")
    (hdirectory : directory.toList = [] ∨ directory.toList.getLast? = some '/') :
    mergeImages a a = a ↔
      RepeatsLast urls ∧ (urls = [] ∨ sharedDirectory (a.images.map Image.path) = directory) := by
  obtain ⟨pathAgain, hkept, hmerged⟩ := exists_mergeImages_self hcovers hgallery hurls hdirectory
  have hkeys : (sources a.gallery).map (·.1) = urls := by
    rw [hgallery]
    exact sources_galleryOf hurls
  have horder := mergeLists_listed_iff (sources a.gallery)
  rw [hkeys] at horder
  rw [← horder]
  generalize WeaveRule.texts.mergeLists _ urls = again at hmerged ⊢
  have hsame : mergeImages a a = a ↔
      galleryOf (sharedDirectory (a.images.map Image.path)) pathAgain 0 again
        = galleryOf directory pathOf 0 urls := by
    rw [hmerged, ← hgallery]
    exact ⟨congrArg Artwork.gallery, fun h => by rw [h]⟩
  rw [hsame]
  constructor
  · intro h
    have hurl := congrArg (List.map Image.url) h
    rw [map_url_galleryOf, map_url_galleryOf] at hurl
    obtain rfl : again = urls := List.map_injective_iff.2 (fun _ _ => Option.some.inj) hurl
    exact ⟨rfl, (galleryOf_eq_iff hkept).1 h⟩
  · rintro ⟨rfl, h⟩
    exact (galleryOf_eq_iff hkept).2 h

end SelfMerge

/-- The gallery after a merge is built of addresses that can be fetched. -/
theorem exists_gallery_mergeImages (stored incoming : Artwork) :
    ∃ pathOf urls, (∀ url ∈ urls, url ≠ "") ∧ (mergeImages stored incoming).gallery
      = galleryOf (sharedDirectory
          (((mergeImages stored incoming).covers ++ stored.gallery).map Image.path)) pathOf 0 urls := by
  refine ⟨_, _, fun url hurl => ?_, rfl⟩
  refine WeaveRule.texts.forall_mergeLists (P := (· ≠ "")) (fun _ _ _ _ h _ => h) ?_ ?_ url hurl
  · intro url hurl
    unfold galleryBase at hurl
    rcases mem_foldl_addSource.1 hurl with hurl | hurl
    · cases hurl
    · exact sources_filled hurl
  · intro url hurl
    exact sources_filled hurl

theorem value_merge (stored incoming : Artwork) :
    (stored.merge incoming).value = mergeImages stored incoming := rfl

/-- Merged with themselves, the images stay what they are, the merge says so,
and no file loses its image. -/
def Stable (a : Artwork) : Prop :=
  a.merge a = .keep a ∧ ∀ path, .remove path ∉ a.plan (a.merge a).value

/-- Artwork is stable if a merge with itself gives the same images. -/
theorem stable_iff {a : Artwork} : a.Stable ↔ mergeImages a a = a := by
  constructor
  · intro h
    exact congrArg Merged.value h.1
  · intro h
    have hkeep : a.merge a = .keep a := by
      unfold merge
      rw [h, Merged.replace_self]
    refine ⟨hkeep, fun path => ?_⟩
    rw [hkeep]
    exact remove_not_mem_plan_self a path

/-- The directory that a merge gives to the gallery. -/
def galleryDirectory (stored incoming : Artwork) : String :=
  sharedDirectory (((stored.merge incoming).value.covers ++ stored.gallery).map Image.path)

/-- **When merged images are stable.**  They are if they have no gallery, or if
no address of the gallery comes again before all of them came once and the next
merge finds the directory of the gallery again.  Highlights and posters stay in
any case. -/
theorem merged_stable_iff (stored incoming : Artwork) :
    ((stored.merge incoming).value.Stable ↔
      (stored.merge incoming).value.gallery = [] ∨
        (RepeatsLast ((stored.merge incoming).value.gallery.map Image.url) ∧
          FoundAgain ((stored.merge incoming).value.covers.map Image.path)
            (galleryDirectory stored incoming))) ∧
    ((stored.merge incoming).value.merge (stored.merge incoming).value).value.covers
      = (stored.merge incoming).value.covers := by
  obtain ⟨pathOf, urls, hurls, hgallery⟩ := exists_gallery_mergeImages stored incoming
  have hcovers : mergeCovers (mergeImages stored incoming).highlight
      (mergeImages stored incoming).poster
        = { mergeImages stored incoming with gallery := [] } := mergeCovers_again _ _
  have hdirectory := sharedDirectory_cases
    (((mergeImages stored incoming).covers ++ stored.gallery).map Image.path)
  have hsame := mergeImages_self_iff hcovers hgallery hurls hdirectory
  obtain ⟨pathAgain, _, hagain⟩ := exists_mergeImages_self hcovers hgallery hurls hdirectory
  unfold galleryDirectory
  simp only [value_merge]
  refine ⟨?_, by rw [hagain]; rfl⟩
  rw [stable_iff, hsame]
  unfold images
  rw [hgallery, map_url_galleryOf, repeatsLast_map_some]
  by_cases hempty : urls = []
  · subst hempty
    exact ⟨fun _ => .inl rfl, fun _ => ⟨⟨[], [], rfl, List.nodup_nil, by simp⟩, .inl rfl⟩⟩
  · have hfilled : galleryOf (sharedDirectory
        (((mergeImages stored incoming).covers ++ stored.gallery).map Image.path)) pathOf 0 urls ≠ [] := by
      obtain ⟨url, rest, rfl⟩ := List.exists_cons_of_ne_nil hempty
      simp [galleryOf]
    rw [sharedDirectory_gallery_iff hempty, or_iff_right hempty, or_iff_right hfilled]

/-- A gallery of one image, without anything else. -/
def lone (path : String) : Artwork :=
  ⟨.empty, .empty, [⟨path, some "https://example.org/a.jpg"⟩]⟩

/-- A document with the address of such an image. -/
def loneDocument : Json :=
  .object [("gallery", .array [.string "https://example.org/a.jpg"])]

/-- **The name of a lone gallery file is taken for a directory**: the first
merge names the file, the second one moves it below a directory of that
name. -/
theorem lone_gallery_moves :
    (ofJson loneDocument).result = .ok .unchanged ∧
    (none.merge (ofJson loneDocument).value).value = lone "02-gallery-00.jpg" ∧
    (lone "02-gallery-00.jpg").merge (lone "02-gallery-00.jpg")
      = .change (lone "02-gallery-00.jpg/02-gallery-00.jpg") ∧
    .remove "02-gallery-00.jpg"
      ∈ (lone "02-gallery-00.jpg").plan (lone "02-gallery-00.jpg/02-gallery-00.jpg") := by
  have hload : (ofJson loneDocument).value = lone "" := by decide +kernel
  have hfirst : mergeImages none (lone "") = ⟨.empty, .empty,
      galleryOf "" (fun url => (Entries.get? url [("https://example.org/a.jpg", "")]).getD "") 0
        (WeaveRule.texts.mergeLists [] ["https://example.org/a.jpg"])⟩ := by
    rfl
  have hsecond : mergeImages (lone "02-gallery-00.jpg") (lone "02-gallery-00.jpg") = ⟨.empty, .empty,
      galleryOf "02-gallery-00.jpg/" (fun url => (Entries.get? url
        [("https://example.org/a.jpg", "02-gallery-00.jpg"),
          ("https://example.org/a.jpg", "02-gallery-00.jpg")]).getD "") 0
        (WeaveRule.texts.mergeLists ["https://example.org/a.jpg"] ["https://example.org/a.jpg"])⟩ := by
    rfl
  refine ⟨by decide +kernel, ?_, ?_, by decide +kernel⟩
  · show mergeImages none (ofJson loneDocument).value = _
    rw [hload, hfirst, WeaveRule.texts.mergeLists_nil]
    decide +kernel
  · unfold merge
    rw [hsecond, WeaveRule.texts.mergeLists_self fun text _ => WeaveRule.texts_keepsItself text]
    decide +kernel

end Artwork

end FilmCatalog
