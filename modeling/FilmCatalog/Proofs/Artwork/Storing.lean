/-
  FilmCatalog.Proofs.Artwork.Storing
  ──────────────────────────────────
  **STORED IMAGES.**

  An image with a path and an address is stored as both.  An image with one of
  them is stored as a single text, and a single text is read as an address if
  it is a remote one, else as a path.  So what is loaded again is the image
  itself (`Unambiguous`), or the text has changed its side (`reread`).  Which
  addresses are remote is of no importance for that.
-/
import FilmCatalog.Proofs.Artwork.Loading
import FilmCatalog.Proofs.Storing

namespace FilmCatalog

open Loaded Translated

variable {isRemote : String → Bool}

/-! ## §1. Images. -/

namespace Image

/-- The image that a single text stands for. -/
def ofText (isRemote : String → Bool) (text : String) : Image :=
  if isRemote text then ⟨"", some text⟩ else ⟨text, none⟩

/-- The image that is loaded after this one was stored. -/
def reread (isRemote : String → Bool) (i : Image) : Image :=
  match i.url with
  | none => ofText isRemote i.path
  | some url => if i.path = "" then ofText isRemote url else i

/-- **A single text of the image is read as what it is**: a path without an
address is not a remote address, and an address without a path is one. -/
def Unambiguous (isRemote : String → Bool) (i : Image) : Prop :=
  (i.url = none → isRemote i.path = false) ∧
    (i.path = "" → ∀ url, i.url = some url → isRemote url = true)

theorem store_isNull (i : Image) : i.store.isNull = false := by
  unfold store
  split
  · rfl
  · split <;> rfl

theorem load_text (old : Image) (text : String) :
    load isRemote old (.string text) = done (ofText isRemote text) .unchanged := by
  unfold load loadScalar ofText
  by_cases h : isRemote text = true <;> simp [h]

/-- A tidy image is loaded again, but a single text is taken for a path or an
address anew. -/
theorem load_store {i : Image} (h : i.Tidy) (old : Image) :
    load isRemote old i.store = done (i.reread isRemote) .unchanged := by
  obtain ⟨path, url⟩ := i
  unfold store reread
  cases url with
  | none => exact load_text old path
  | some url =>
    simp only
    by_cases hpath : path = ""
    · rw [if_pos hpath, if_pos hpath]
      exact load_text old url
    · rw [if_neg hpath, if_neg hpath]
      have hurl : url ≠ "" := fun hempty => h (congrArg some hempty)
      unfold load loadScalar
      simp [hurl]

/-- **An image is loaded again as it was exactly if it is unambiguous.** -/
theorem reread_eq_self_iff (i : Image) : i.reread isRemote = i ↔ i.Unambiguous isRemote := by
  obtain ⟨path, url⟩ := i
  unfold reread Unambiguous ofText
  cases url with
  | none => by_cases hremote : isRemote path = true <;> simp [hremote]
  | some url =>
    by_cases hpath : path = ""
    · by_cases hremote : isRemote url = true <;> simp [hpath, hremote]
    · simp [hpath]

end Image

/-! ## §2. Posters. -/

namespace PosterSet

/-- The set that is loaded after this one was stored. -/
def reread (isRemote : String → Bool) (p : PosterSet) : PosterSet :=
  ⟨p.small.map (Image.reread isRemote), p.normal.map (Image.reread isRemote),
    p.large.map (Image.reread isRemote)⟩

/-- The sizes with their keys. -/
def parts (p : PosterSet) : List (String × Json) :=
  [ ("small", storeOptional Image.store p.small),
    ("normal", storeOptional Image.store p.normal),
    ("large", storeOptional Image.store p.large) ]

theorem nodup_parts (p : PosterSet) : (p.parts.map (·.1)).Nodup := by
  show ["small", "normal", "large"].Nodup
  decide

/-- What is said of the sizes: whether one was there. -/
def presence (p : PosterSet) : Outcome :=
  ((FilmCatalog.presence p.small.isSome).absorb (FilmCatalog.presence p.normal.isSome)).absorb
    (FilmCatalog.presence p.large.isSome)

/-- A set of posters with an image was there. -/
theorem presence_eq_unchanged {p : PosterSet} (h : p.images ≠ []) : p.presence = .unchanged := by
  obtain ⟨small, normal, large⟩ := p
  cases small <;> cases normal <;> cases large <;>
    simp_all [images, presence, FilmCatalog.presence, Outcome.absorb]

/-- The sizes of tidy posters are loaded again, each image on its own. -/
theorem load_parts {p : PosterSet} (h : ∀ image ∈ p.images, image.Tidy) :
    load isRemote default (.object (storedObject p.parts))
      = done (p.reread isRemote) p.presence := by
  have hsize : ∀ key (size : Option Image), (∀ image ∈ size, image ∈ p.images) →
      Entries.get? key p.parts = some (storeOptional Image.store size) →
      ∀ old, loadOptional (Image.load isRemote) default (storedObject p.parts) key old
        = done (size.map (Image.reread isRemote)) (FilmCatalog.presence size.isSome) :=
    fun key size hsize hget old => loadOptional_storedObject p.nodup_parts hget
      (fun image himage => ⟨image.store_isNull, Image.load_store (h image (hsize image himage)) _⟩) old
  have hsmall := hsize "small" p.small (fun image h => mem_images.2 (.inl h)) rfl
  have hnormal := hsize "normal" p.normal (fun image h => mem_images.2 (.inr (.inl h))) rfl
  have hlarge := hsize "large" p.large (fun image h => mem_images.2 (.inr (.inr h))) rfl
  unfold load withFields
  simp only [hsmall, hnormal, hlarge]
  show done (p.reread isRemote) (((Outcome.absorb .absent _).absorb _).absorb _) = _
  rw [Outcome.absent_absorb]
  rfl

/-- A set with an image is stored as something, and loaded again. -/
theorem load_store {p : PosterSet} (h : p.Tidy) :
    p.store.isNull = false ∧
      load isRemote default p.store = done (p.reread isRemote) .unchanged := by
  have hload : load isRemote default _ = _ := load_parts h.2
  rw [presence_eq_unchanged h.1] at hload
  rcases storeFields_eq p.parts with ⟨_, hobject⟩ | hstore
  · -- Nothing would be found in an object without fields.
    rw [hobject] at hload
    cases congrArg Loaded.result hload
  · show (storeFields p.parts).isNull = false ∧
      load isRemote default (storeFields p.parts) = _
    rw [hstore]
    exact ⟨rfl, hload⟩

/-- Posters stay as they are if each image is read as what it is. -/
theorem reread_eq_self_iff (p : PosterSet) :
    p.reread isRemote = p ↔ ∀ image ∈ p.images, image.Unambiguous isRemote := by
  have hsize : ∀ size : Option Image, size.map (Image.reread isRemote) = size ↔
      ∀ image, size = some image → image.Unambiguous isRemote := by
    intro size
    cases size <;> simp [Image.reread_eq_self_iff]
  show PosterSet.mk _ _ _ = PosterSet.mk _ _ _ ↔ _
  simp only [PosterSet.mk.injEq, hsize, mem_images, or_imp, forall_and]

end PosterSet

/-! ## §3. All images of a film. -/

namespace Artwork

/-- The images that are loaded after these were stored. -/
def reread (isRemote : String → Bool) (a : Artwork) : Artwork :=
  ⟨SortedMap.map (Image.reread isRemote) a.highlight,
    SortedMap.map (PosterSet.reread isRemote) a.poster, a.gallery.map (Image.reread isRemote)⟩

/-- An image of a film is a highlight, a poster or in the gallery. -/
theorem mem_images {a : Artwork} {image : Image} :
    image ∈ a.images ↔ (∃ tag, SortedMap.get? a.highlight tag = some image) ∨
      (∃ posters, (∃ tag, SortedMap.get? a.poster tag = some posters) ∧ image ∈ posters.images) ∨
      image ∈ a.gallery := by
  unfold images covers
  simp only [List.mem_append, List.mem_flatMap, SortedMap.mem_values_iff, or_assoc]

/-- **All images are loaded again as they were exactly if each of them is
unambiguous.** -/
theorem reread_eq_self_iff (a : Artwork) :
    a.reread isRemote = a ↔ ∀ image ∈ a.images, image.Unambiguous isRemote := by
  have hgallery : a.gallery.map (Image.reread isRemote) = a.gallery ↔
      ∀ image ∈ a.gallery, image.Unambiguous isRemote := by
    conv => lhs; rhs; rw [← List.map_id a.gallery]
    simp only [List.map_inj_left, id, Image.reread_eq_self_iff]
  show Artwork.mk _ _ _ = Artwork.mk _ _ _ ↔ _
  simp only [Artwork.mk.injEq, SortedMap.map_eq_self, hgallery, Image.reread_eq_self_iff,
    PosterSet.reread_eq_self_iff]
  constructor
  · rintro ⟨hhighlight, hposter, hgallery⟩ image himage
    rcases mem_images.1 himage with ⟨tag, hin⟩ | ⟨posters, ⟨tag, hin⟩, hsize⟩ | hin
    · exact hhighlight tag image hin
    · exact hposter tag posters hin image hsize
    · exact hgallery image hin
  · intro h
    refine ⟨fun tag image hin => ?_, fun tag posters hin image hsize => ?_, fun image hin => ?_⟩
    · exact h image (mem_images.2 (.inl ⟨tag, hin⟩))
    · exact h image (mem_images.2 (.inr (.inl ⟨posters, ⟨tag, hin⟩, hsize⟩)))
    · exact h image (mem_images.2 (.inr (.inr hin)))

/-- The fields of the images, property by property. -/
def groups (a : Artwork) : List (String × List (String × Json)) :=
  [ ("highlight", stored Image.store "highlight" a.highlight),
    ("poster", stored PosterSet.store "poster" a.poster),
    ("gallery", [("gallery", storeList Image.store a.gallery)]) ]

theorem store_eq (a : Artwork) : a.store = storeFields (ungrouped a.groups) := by
  unfold store groups ungrouped
  simp

theorem grouped (a : Artwork) : Grouped a.groups where
  names := by
    show ["highlight", "poster", "gallery"].Nodup
    decide
  belong := by
    unfold groups
    simp only [List.forall_mem_cons]
    exact ⟨belongs_stored (by decide) _ _, belongs_stored (by decide) _ _,
      belongs_single (by decide) _, nofun⟩

/-- **Stored images are loaded again**, each as what its text says. -/
theorem rereads_store {a : Artwork} (h : a.Tidy) :
    Rereads (load isRemote) none a.store (a.reread isRemote) := by
  rw [store_eq]
  refine rereads_storeFields (quiet_absent none) ?_
  have hhighlight : Holds (Image.load isRemote) default (Image.reread isRemote) Image.store
      "highlight" a.highlight (storedObject (ungrouped a.groups)) :=
    a.grouped.holds (by decide) rfl fun tag image himage =>
      ⟨image.store_isNull, Image.load_store (h.highlight tag image himage) default⟩
  have hposter : Holds (PosterSet.load isRemote) default (PosterSet.reread isRemote)
      PosterSet.store "poster" a.poster (storedObject (ungrouped a.groups)) :=
    a.grouped.holds (by decide) rfl fun tag posters hposters =>
      PosterSet.load_store (h.poster tag posters hposters)
  have hstored : Entries.get? "gallery" (ungrouped a.groups)
      = some (storeList Image.store a.gallery) := a.grouped.get?_single (by decide) rfl
  have himages : Rereads (loadList (Image.load isRemote) default) [] (storeList Image.store a.gallery)
      (a.gallery.map (Image.reread isRemote)) :=
    rereads_storeList fun image himage => Image.load_store (h.gallery image himage) default
  have hgallery := quiet_loadField a.grouped.nodup_keys hstored himages
  exact (((quiet_absent none).andThen (hhighlight.quiet_load.into _)).andThen
    (hposter.quiet_load.into _)).andThen (hgallery.into _)

end Artwork

end FilmCatalog
