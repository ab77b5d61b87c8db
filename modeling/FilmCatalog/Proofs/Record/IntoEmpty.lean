/-
  FilmCatalog.Proofs.Record.IntoEmpty
  ───────────────────────────────────
  **A RECORD MERGED INTO AN EMPTY ONE.**

  Where nothing is stored, nearly every field takes what comes in.  Two do not:

    • of several original titles one is left (`Titles.Reduced`),
    • the files of the gallery are named anew, in the directory that highlights
      and posters share, wherever they were before (`Artwork.Moved`).

  So a record that a merge with itself leaves is reproduced exactly if neither
  happens (`merge_into_empty`).
-/
import FilmCatalog.Proofs.Artwork.Stability
import FilmCatalog.Proofs.Crew.Remerge
import FilmCatalog.Proofs.Record.SelfMerge
import FilmCatalog.Proofs.Titles.Originals

namespace FilmCatalog

/-! ## §1. Single fields. -/

namespace Merged

variable {α : Type}

/-- New languages are taken as they are. -/
theorem value_run_language_new {mergeOne : α → α → Merged α} {entries : List (String × α)}
    (hkeys : (entries.map (·.1)).Nodup) {merged : Merged (Translated α)}
    (hnew : ∀ entry ∈ entries, SortedMap.get? merged.value entry.1 = none) :
    (run (language mergeOne) entries merged).value
      = entries.foldl (fun all entry => SortedMap.insert all entry.1 entry.2) merged.value := by
  induction entries generalizing merged with
  | nil => rfl
  | cons entry rest ih =>
    rw [List.map_cons, List.nodup_cons] at hkeys
    obtain ⟨hentry, hrest⟩ := List.forall_mem_cons.1 hnew
    have hstep : (merged.andThen fun m => language mergeOne m entry.1 entry.2).value
        = SortedMap.insert merged.value entry.1 entry.2 := by
      show (language mergeOne merged.value entry.1 entry.2).value = _
      unfold language
      rw [hentry]
      rfl
    rw [run_cons, ih hkeys.2, hstep, List.foldl_cons]
    intro other hother
    have hne : entry.1 ≠ other.1 := fun hsame => hkeys.1 (hsame ▸ List.mem_map_of_mem hother)
    rw [hstep, SortedMap.get?_insert_of_ne _ _ hne, hrest other hother]

/-- Languages that come into an empty map are taken as they are. -/
theorem value_languages_empty (mergeOne : α → α → Merged α) (incoming : Translated α) :
    (languages mergeOne .empty incoming).value = incoming := by
  show (run (language mergeOne) incoming.entries (keep .empty)).value = incoming
  rw [value_run_language_new (Entries.nodup_keys incoming.ascending) fun _ _ => rfl]
  exact SortedMap.ofList_entries incoming

variable [DecidableEq α]

theorem value_optional_none (incoming : Option α) : (optional none incoming).value = incoming := by
  cases incoming with
  | none => rfl
  | some value => rfl

theorem value_preferred_none (prefer : Preference) (incoming : Option α) :
    (preferred prefer none incoming).value = incoming := by
  cases prefer with
  | mine => exact value_optional_none incoming
  | theirs => exact value_optional_none incoming

end Merged

theorem WeaveRule.value_merge_nil {α : Type} [DecidableEq α] (rule : WeaveRule α) (items : List α) :
    (rule.merge [] items).value = items := rule.mergeLists_nil items

theorem Dates.value_merge_none (d : Dates) : (Dates.none.merge d).value = d := by
  unfold Dates.merge Dates.none
  simp only [Merged.value_optional_none]

theorem Playback.value_merge_unknown (p : Playback) : (Playback.unknown.merge p).value = p := by
  unfold Playback.merge Playback.unknown
  simp only [Merged.value_optional_none, WeaveRule.value_merge_nil]

/-- **A crew in normal form merged into none stays what it is.** -/
theorem Crew.merge_empty {c : Crew} (h : c.Normal) :
    Crew.empty.merge c = .ok (.replace .empty c) := by
  have hcredits : ∀ department, mergedCredits .empty c department = c.creditsOf department := by
    intro department
    unfold mergedCredits
    rw [creditsOf_empty, Credit.rule.mergeLists_nil]
  rw [merge_eq attached_empty h.attached, hcredits, hcredits, hcredits, ofCredits_creditsOf h]

/-! ## §2. Images. -/

namespace Artwork

/-- **The same images, with the files of the gallery in another directory.** -/
structure Moved (a moved : Artwork) (source target : String) : Prop where
  highlight : moved.highlight = a.highlight
  poster : moved.poster = a.poster
  urls : moved.gallery.map Image.url = a.gallery.map Image.url
  files : ∃ names : List String, a.gallery.map Image.path = names.map (source ++ ·) ∧
    moved.gallery.map Image.path = names.map (target ++ ·)

/-- Images that a merge with themselves leaves have nothing to clear. -/
theorem mergeCovers_of_mergeImages {a : Artwork} (h : mergeImages a a = a) :
    mergeCovers a.highlight a.poster = { a with gallery := [] } := by
  have hcovers : { mergeImages a a with gallery := [] } = mergeCovers a.highlight a.poster := by
    unfold mergeImages
    rw [Merged.languages_self Image.merge_self, Merged.languages_self PosterSet.merge_self]
    rfl
  rw [← hcovers, h]

/-- Images that a merge with themselves leaves, merged into none: the gallery is
built from the same addresses and extensions, but in the directory that
highlights and posters share. -/
theorem exists_mergeImages_none {a : Artwork} (h : mergeImages a a = a) :
    ∃ pathOf urls,
      a.gallery = galleryOf (sharedDirectory (a.images.map Image.path)) pathOf 0 urls ∧
      mergeImages none a = ⟨a.highlight, a.poster,
        galleryOf (sharedDirectory (a.covers.map Image.path)) pathOf 0 urls⟩ := by
  obtain ⟨pathOf, urls, hurls, hgallery⟩ := exists_gallery_mergeImages a a
  rw [h] at hgallery
  refine ⟨pathOf, urls, hgallery, ?_⟩
  have hkeys : (sources a.gallery).map (·.1) = urls := by
    rw [hgallery]
    exact sources_galleryOf hurls
  have hbase : galleryBase a.highlight none a = [] := by
    unfold galleryBase
    rw [displaced_self]
    rfl
  have hkept : ∀ url ∈ urls, keptExtension ((Entries.get? url (sources a.gallery)).getD "")
      = keptExtension (pathOf url) := by
    intro url hurl
    have hknown : ∀ entry ∈ sources a.gallery, entry ∈ sources
        (galleryOf (sharedDirectory (a.images.map Image.path)) pathOf 0 urls) := by
      intro entry hentry
      unfold images
      rwa [← hgallery]
    exact keptExtension_lookup (sharedDirectory_cases _) hknown (hkeys.symm ▸ hurl)
  have hmerged : mergeImages none a = ⟨a.highlight, a.poster,
      galleryOf (sharedDirectory (a.covers.map Image.path))
        (fun url => (Entries.get? url (sources a.gallery)).getD "") 0 urls⟩ := by
    have hhighlight : (Merged.languages Image.merge none.highlight a.highlight).value = a.highlight :=
      Merged.value_languages_empty Image.merge a.highlight
    have hposter : (Merged.languages PosterSet.merge none.poster a.poster).value = a.poster :=
      Merged.value_languages_empty PosterSet.merge a.poster
    unfold mergeImages
    simp only [hhighlight, hposter, hbase, mergeCovers_of_mergeImages h, hkeys, List.map_nil,
      List.nil_append, WeaveRule.texts.mergeLists_nil]
    show Artwork.mk a.highlight a.poster
      (galleryOf (sharedDirectory ((a.covers ++ []).map Image.path)) _ 0 urls) = _
    rw [List.append_nil]
  rw [hmerged, (galleryOf_eq_iff hkept).2 (.inr rfl)]

/-- Stable artwork that comes into a film without any moves its gallery to the
directory of the other images. -/
theorem moved_mergeImages_none {a : Artwork} (h : mergeImages a a = a) :
    a.Moved (mergeImages none a) (sharedDirectory (a.images.map Image.path))
      (sharedDirectory (a.covers.map Image.path)) := by
  obtain ⟨pathOf, urls, hgallery, hmerged⟩ := exists_mergeImages_none h
  rw [hmerged]
  refine ⟨rfl, rfl, ?_, fileNames pathOf 0 urls, ?_, ?_⟩
  · rw [hgallery, map_url_galleryOf, map_url_galleryOf]
  · rw [← map_path_galleryOf, ← hgallery]
  · exact map_path_galleryOf _ _ _ _

/-- **Images merged into none** are the same again exactly if the gallery lies in
the directory of the highlights and posters. -/
theorem mergeImages_none_eq_iff {a : Artwork} (h : mergeImages a a = a) :
    mergeImages none a = a ↔ a.gallery = [] ∨
      sharedDirectory (a.covers.map Image.path) = sharedDirectory (a.images.map Image.path) := by
  obtain ⟨pathOf, urls, hgallery, hmerged⟩ := exists_mergeImages_none h
  have hempty : a.gallery = [] ↔ urls = [] := by
    rw [hgallery]
    cases urls with
    | nil => simp [galleryOf]
    | cons url rest => simp [galleryOf]
  have hsame : mergeImages none a = a ↔
      galleryOf (sharedDirectory (a.covers.map Image.path)) pathOf 0 urls
        = galleryOf (sharedDirectory (a.images.map Image.path)) pathOf 0 urls := by
    rw [hmerged, ← hgallery]
    exact ⟨congrArg Artwork.gallery, fun hsame => by rw [hsame]⟩
  rw [hsame, hempty]
  exact galleryOf_eq_iff fun url _ => rfl

end Artwork

/-! ## §3. Records. -/

namespace Record

theorem merge_empty_eq (prefs : Preferences) {r : Record} (h : r.Normal) :
    ∃ merged, merge prefs .empty r = .ok merged ∧
      merged.record = { r with
        title := (Titles.merge prefs.title .empty r.title).value
        image := Artwork.mergeImages .none r.image } := by
  have htags : (mergeTags [] r.tags).value = r.tags := by
    rw [mergeTags_eq List.nodup_nil h.tags]
    exact WeaveRule.texts.value_merge_nil r.tags
  have htexts : ∀ texts, (Merged.texts .empty texts).value = texts :=
    Merged.value_languages_empty Merged.replace
  refine ⟨_, merge_of_crew (Crew.merge_empty h.crew) prefs, ?_⟩
  unfold mergeWith empty
  simp only [WeaveRule.value_merge_nil, htags, htexts, Merged.value_preferred_none,
    Dates.value_merge_none, Playback.value_merge_unknown]
  rfl

/-- Two fields of a record. -/
theorem eq_self_iff {r : Record} {title : Titles} {image : Artwork} :
    { r with title := title, image := image } = r ↔ title = r.title ∧ image = r.image := by
  constructor
  · intro h
    exact ⟨congrArg Record.title h, congrArg Record.image h⟩
  · rintro ⟨rfl, rfl⟩
    rfl

/-- **What merging into an empty record gives**, for a record of a document that
a merge with itself leaves as it is.  It succeeds and reproduces all fields but
titles and images.  Of the original titles one is left.  The gallery is named
anew, in the directory that highlights and posters share.  So the record is
reproduced exactly if at most one title is original and the gallery lies in that
directory already. -/
theorem merge_into_empty (node : Json) (outcome : Outcome) (prefs : Preferences)
    (hload : (ofJson node).result = .ok outcome)
    (hself : ∃ self, merge prefs (ofJson node).value (ofJson node).value = .ok self ∧
      self.record = (ofJson node).value) :
    ∃ merged, merge prefs .empty (ofJson node).value = .ok merged ∧
      merged.record = { (ofJson node).value with
        title := merged.record.title, image := merged.record.image } ∧
      Titles.Reduced prefs.title (ofJson node).value.title.entries merged.record.title ∧
      (ofJson node).value.image.Moved merged.record.image
        (Artwork.sharedDirectory ((ofJson node).value.image.images.map Image.path))
        (Artwork.sharedDirectory ((ofJson node).value.image.covers.map Image.path)) ∧
      (merged.record = (ofJson node).value ↔
        Titles.originals (ofJson node).value.title ≤ 1 ∧
          ((ofJson node).value.image.gallery = [] ∨
            Artwork.sharedDirectory ((ofJson node).value.image.covers.map Image.path)
              = Artwork.sharedDirectory ((ofJson node).value.image.images.map Image.path))) := by
  have hnormal := (ensures_ofJson_normal node outcome hload).normal
  generalize (ofJson node).value = r at hself hnormal ⊢
  have himage : Artwork.mergeImages r.image r.image = r.image := by
    obtain ⟨self, hmerge, hrecord⟩ := hself
    rw [merge_self_eq prefs hnormal] at hmerge
    cases hmerge
    exact congrArg Record.image hrecord
  obtain ⟨merged, hmerge, hrecord⟩ := merge_empty_eq prefs hnormal
  refine ⟨merged, hmerge, ?_, ?_, ?_, ?_⟩
  · rw [hrecord]
  · rw [hrecord]
    exact Titles.reduced_merge_empty prefs.title r.title
  · rw [hrecord]
    exact Artwork.moved_mergeImages_none himage
  · rw [hrecord, eq_self_iff, Titles.merge_empty_eq_iff, Artwork.mergeImages_none_eq_iff himage]

/-- A record with placed images, merged with itself. -/
theorem merge_self_of_placed (prefs : Preferences) {r : Record} (h : r.Normal) (htidy : r.image.Tidy)
    (hplaced : r.image.Placed) :
    merge prefs r r = .ok ⟨r, .unchanged, r.image.plan r.image⟩ := by
  rw [merge_self_eq prefs h]
  unfold Artwork.merge
  rw [Artwork.mergeImages_self htidy hplaced, Merged.replace_self]
  rfl

/-- A document with an original and another title, and with images in their
places. -/
def translatedDocument : Json :=
  .object [
    ("crew", .object [("directors", .array [.ofInt 0]), ("names", .array [.string "David Ondříček"])]),
    ("image", .object [
      ("gallery", .array [
        .array [.string "loners/02-gallery-00.png", .string "https://example.org/a.png"]]),
      ("highlight", .array [.string "loners/01-highlight.jpg", .string "https://example.org/h"]),
      ("poster:cs", .object [("large", .string "loners/cs/00-poster-2_large.jpg")])]),
    ("title:cs", .object [("original", .bool true), ("text", .string "Samotáři")]),
    ("title:en", .string "Loners"),
    ("year", .ofInt 2000)]

theorem merge_into_empty_translated :
    (ofJson translatedDocument).result = .ok .unchanged ∧
    (∃ self, merge ⟨.theirs, .mine⟩ (ofJson translatedDocument).value
      (ofJson translatedDocument).value = .ok self ∧
        self.record = (ofJson translatedDocument).value) ∧
    ∃ merged, merge ⟨.theirs, .mine⟩ .empty (ofJson translatedDocument).value = .ok merged ∧
      merged.record = (ofJson translatedDocument).value := by
  have hresult : (ofJson translatedDocument).result = .ok .unchanged := by decide +kernel
  have hloaded := ensures_ofJson_normal translatedDocument .unchanged hresult
  have hplaced : (ofJson translatedDocument).value.image.Placed :=
    ⟨by decide +kernel, by decide +kernel, by decide +kernel, by decide +kernel⟩
  have hself : ∃ self, merge ⟨.theirs, .mine⟩ (ofJson translatedDocument).value
      (ofJson translatedDocument).value = .ok self ∧
        self.record = (ofJson translatedDocument).value :=
    ⟨_, merge_self_of_placed ⟨.theirs, .mine⟩ hloaded.normal hloaded.image hplaced, rfl⟩
  obtain ⟨merged, hmerge, _, _, _, hsame⟩ :=
    merge_into_empty translatedDocument .unchanged ⟨.theirs, .mine⟩ hresult hself
  refine ⟨hresult, hself, merged, hmerge, hsame.2 ⟨by decide +kernel, .inr (by decide +kernel)⟩⟩

/-- A document with two original titles. -/
def twoOriginalsDocument : Json :=
  .object [
    ("title:ar", .object [("original", .bool true), ("text", .string "Loners")]),
    ("title:cs", .object [("original", .bool true), ("text", .string "Samotáři")])]

/-- A document with a gallery in a directory of its own. -/
def strayGalleryDocument : Json :=
  .object [("image", .object [("gallery", .array [
    .array [.string "alien/02-gallery-00.jpg", .string "https://example.org/a.jpg"]])])]

/-- A merge with itself leaves the record, but a merge into an empty record gives
another one. -/
def Lossy (prefs : Preferences) (r : Record) : Prop :=
  (∃ self, merge prefs r r = .ok self ∧ self.record = r ∧ self.outcome = .unchanged) ∧
    ∃ merged, merge prefs .empty r = .ok merged ∧ merged.record ≠ r

/-- A record whose images are in their places loses something if it has more
than one original title, or if its gallery has to move. -/
theorem lossy_of_placed (prefs : Preferences) {r : Record} (h : r.Normal) (htidy : r.image.Tidy)
    (hplaced : r.image.Placed)
    (hlost : ¬ (Titles.originals r.title ≤ 1 ∧ (r.image.gallery = [] ∨
      Artwork.sharedDirectory (r.image.covers.map Image.path)
        = Artwork.sharedDirectory (r.image.images.map Image.path)))) : Lossy prefs r := by
  refine ⟨⟨_, merge_self_of_placed prefs h htidy hplaced, rfl, rfl⟩, ?_⟩
  obtain ⟨merged, hmerge, hrecord⟩ := merge_empty_eq prefs h
  refine ⟨merged, hmerge, fun hsame => hlost ?_⟩
  rwa [hrecord, eq_self_iff, Titles.merge_empty_eq_iff,
    Artwork.mergeImages_none_eq_iff (Artwork.mergeImages_self htidy hplaced)] at hsame

/-- **A second original title is lost, and so is a directory that only the
gallery has.** -/
theorem originals_and_directory_lost :
    (ofJson twoOriginalsDocument).result = .ok .unchanged ∧
    Lossy ⟨.mine, .mine⟩ (ofJson twoOriginalsDocument).value ∧
    (ofJson strayGalleryDocument).result = .ok .unchanged ∧
    Lossy ⟨.mine, .mine⟩ (ofJson strayGalleryDocument).value := by
  have htitles : (ofJson twoOriginalsDocument).result = .ok .unchanged := by decide +kernel
  have hgallery : (ofJson strayGalleryDocument).result = .ok .unchanged := by decide +kernel
  have hfirst := ensures_ofJson_normal twoOriginalsDocument .unchanged htitles
  have hsecond := ensures_ofJson_normal strayGalleryDocument .unchanged hgallery
  refine ⟨htitles, ?_, hgallery, ?_⟩
  · refine lossy_of_placed _ hfirst.normal hfirst.image
      ⟨by decide +kernel, by decide +kernel, by decide +kernel, by decide +kernel⟩ ?_
    decide +kernel
  · refine lossy_of_placed _ hsecond.normal hsecond.image
      ⟨by decide +kernel, by decide +kernel, by decide +kernel, by decide +kernel⟩ ?_
    decide +kernel

end Record

end FilmCatalog
