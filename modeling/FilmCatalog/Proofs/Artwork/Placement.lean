/-
  FilmCatalog.Proofs.Artwork.Placement
  ────────────────────────────────────
  **EVERY IMAGE HAS A FILE OF ITS OWN.**

  A place is told by a slot: the tag of a language and the name of a file in
  the directory of that language.  The path of an image is

      directory / tag / name . extension

  and the slot can be read off it again, whatever the directory, the tags and
  the extensions are, because a name holds no slash and no dot and an extension
  no slash (`Slot.eq_of_path`).  No two images of a film stand in one slot
  (`nodup_slots`), so no two paths are equal.

  Places are assigned slot by slot to highlights and posters
  (`coverSlots_assignPaths`), and to what is left of the gallery, counted anew
  (`gallerySlots_placeGallery`).
-/
import Mathlib.Data.List.Nodup
import FilmCatalog.Artwork.Placement
import FilmCatalog.Proofs.Artwork.FileNames
import FilmCatalog.Proofs.Artwork.Keeping

namespace FilmCatalog

/-! ## §1. Extensions. -/

/-- What stands before all small letters is the lower case of itself alone. -/
theorem eq_of_toLower {c mark : Char} (hmark : mark.val < 'a'.val) (h : c.toLower = mark) :
    c = mark := by
  unfold Char.toLower at h
  split at h
  · rename_i hcapital
    -- A capital letter would become a small one.
    obtain ⟨hfirst, hlast⟩ := hcapital
    have hval : c.val + ('a'.val - 'A'.val) = mark.val := congrArg Char.val h
    rw [← hval, UInt32.lt_iff_toNat_lt, UInt32.toNat_add] at hmark
    rw [ge_iff_le, UInt32.le_iff_toNat_le] at hfirst
    rw [UInt32.le_iff_toNat_le] at hlast
    have hshift : ('a'.val - 'A'.val).toNat = 32 ∧ 'a'.val.toNat = 97 ∧ 'A'.val.toNat = 65 ∧
        'Z'.val.toNat = 90 := by decide
    omega
  · exact h

/-- The extension of an address is a dot and letters without dots and slashes. -/
theorem isExtension_extensionOf (address : String) : Artwork.IsExtension (extensionOf address) := by
  have hdefault : Artwork.IsExtension defaultExtension :=
    .inr ⟨['j', 'p', 'g'], rfl, by decide, by decide⟩
  unfold extensionOf
  dsimp only
  split
  · exact hdefault
  · rename_i extension hextension
    split
    · exact hdefault
    · obtain ⟨hdot, hslash⟩ := Path.plain_of_extension? hextension
      have hlower : ∀ mark : Char, mark.val < 'a'.val → mark ∉ extension.toList →
          mark ∉ extension.toList.map Char.toLower := by
        intro mark hmark hplain hmem
        obtain ⟨c, hc, hlower⟩ := List.mem_map.1 hmem
        exact hplain (eq_of_toLower hmark hlower ▸ hc)
      refine .inr ⟨extension.toList.map Char.toLower, ?_, hlower '.' (by decide) hdot,
        hlower '/' (by decide) hslash⟩
      rw [String.toList_append]
      exact congrArg ('.' :: ·) String.toList_ofList

namespace Artwork

/-! ## §2. Slots and their paths. -/

/-- The name of a file before its extension: it starts with a digit and holds
neither a slash nor a dot. -/
def Plain (name : String) : Prop := NamesFile name.toList ∧ '.' ∉ name.toList

instance (name : String) : Decidable (Plain name) :=
  inferInstanceAs
    (Decidable (('/' ∉ name.toList ∧ name.toList.head? = some '0') ∧ '.' ∉ name.toList))

/-- Every language has a directory of its own. -/
theorem languageDirectory_injective {directory tag other : String}
    (h : languageDirectory directory tag = languageDirectory directory other) : tag = other := by
  have hbelow : ∀ tag : String, directory ++ "/" ++ tag ≠ directory := by
    intro tag hsame
    have hlength := congrArg String.length hsame
    rw [String.length_append, String.length_append, show "/".length = 1 from rfl] at hlength
    omega
  unfold languageDirectory at h
  split at h
  · rename_i htag
    split at h
    · rename_i hother
      rw [htag, hother]
    · exact absurd h.symm (hbelow other)
  · split at h
    · exact absurd h (hbelow tag)
    · exact (String.append_right_inj _).1 h

/-- A place for an image, whatever the directory: the tag of a language and the
name of a file. -/
structure Slot where
  tag : String
  name : String
  deriving DecidableEq

namespace Slot

/-- The path of a slot below a directory. -/
def path (directory : String) (slot : Slot) (extension : String) : String :=
  languageDirectory directory slot.tag ++ "/" ++ slot.name ++ extension

/-- The last slash of a path stands before the name of the file. -/
theorem splitLast_path (directory : String) {slot : Slot} (hslot : Plain slot.name)
    {extension : String} (hextension : IsExtension extension) :
    Text.splitLast '/' (slot.path directory extension).toList
      = some ((languageDirectory directory slot.tag).toList, (slot.name ++ extension).toList) := by
  have hpath : (slot.path directory extension).toList =
      (languageDirectory directory slot.tag).toList ++ '/' :: (slot.name ++ extension).toList := by
    unfold path
    rw [String.append_assoc, String.append_assoc, String.toList_append, String.toList_append]
    rfl
  rw [hpath, Text.splitLast_append _ (namesFile_append hslot.1 hextension).1]

/-- **A path tells its slot**, whatever the extension. -/
theorem eq_of_path {directory : String} {slot other : Slot} (hslot : Plain slot.name)
    (hother : Plain other.name) {extension last : String} (hextension : IsExtension extension)
    (hlast : IsExtension last) (h : slot.path directory extension = other.path directory last) :
    slot = other := by
  have hsplit := splitLast_path directory hslot hextension
  rw [h, splitLast_path directory hother hlast, Option.some.injEq, Prod.mk.injEq] at hsplit
  obtain ⟨hdirectory, hfile⟩ := hsplit
  have htag : other.tag = slot.tag := languageDirectory_injective (String.toList_inj.1 hdirectory)
  have hname : other.name = slot.name := name_of_file hother.2 hslot.2 hlast hextension hfile
  cases slot
  cases other
  rw [mk.injEq]
  exact ⟨htag.symm, hname.symm⟩

end Slot

/-! ## §3. The slots of a film. -/

/-- The sizes of a poster, each with the name of its file. -/
def posterSizes (p : PosterSet) : List (String × Option Image) :=
  [("00-poster-0_small", p.small), ("00-poster-1_normal", p.normal), ("00-poster-2_large", p.large)]

/-- The images of a set of posters in their slots. -/
def posterSlots (tag : String) (p : PosterSet) : List (Slot × Image) :=
  (posterSizes p).filterMap fun size => size.2.map fun image => (⟨tag, size.1⟩, image)

/-- The images outside of the gallery in their slots: highlights, then posters. -/
def coverSlots (a : Artwork) : List (Slot × Image) :=
  a.highlight.entries.map (fun entry => (⟨entry.1, "01-highlight"⟩, entry.2))
    ++ a.poster.entries.flatMap fun entry => posterSlots entry.1 entry.2

/-- The images of a gallery in their slots, counted from `index`. -/
def gallerySlots (index : Nat) (gallery : List Image) : List (Slot × Image) :=
  (gallery.zipIdx index).map fun entry => (⟨Translated.defaultTag, galleryName entry.2⟩, entry.1)

/-- All images in their slots. -/
def slots (a : Artwork) : List (Slot × Image) := a.coverSlots ++ gallerySlots 0 a.gallery

/-- The slots of a language hold its posters. -/
theorem map_snd_posterSlots (tag : String) (p : PosterSet) :
    (posterSlots tag p).map Prod.snd = p.images := by
  obtain ⟨small, normal, large⟩ := p
  cases small <;> cases normal <;> cases large <;> rfl

/-- The slots of a film hold all its images. -/
theorem map_snd_slots (a : Artwork) : a.slots.map Prod.snd = a.images := by
  have hcovers : a.coverSlots.map Prod.snd = a.covers := by
    unfold coverSlots covers SortedMap.values
    rw [List.map_append, List.map_map, List.map_flatMap, List.flatMap_map]
    simp only [map_snd_posterSlots]
    rfl
  have hgallery : (gallerySlots 0 a.gallery).map Prod.snd = a.gallery := by
    unfold gallerySlots
    rw [List.map_map]
    exact List.zipIdx_map_fst 0 a.gallery
  unfold slots images
  rw [List.map_append, hcovers, hgallery]

/-- The names of poster files. -/
def posterNames : List String := ["00-poster-0_small", "00-poster-1_normal", "00-poster-2_large"]

/-- Posters stand in slots of the three names, each at most once and in their
order. -/
theorem posterSlots_sublist (tag : String) (p : PosterSet) :
    ((posterSlots tag p).map Prod.fst).Sublist (posterNames.map (Slot.mk tag)) := by
  have hsizes : ∀ sizes : List (String × Option Image),
      ((sizes.filterMap fun size => size.2.map fun image => (Slot.mk tag size.1, image)).map
        Prod.fst).Sublist ((sizes.map Prod.fst).map (Slot.mk tag)) := by
    intro sizes
    induction sizes with
    | nil => exact .slnil
    | cons size rest ih =>
      obtain ⟨name, image⟩ := size
      cases image with
      | none => exact ih.cons _
      | some image => exact ih.cons_cons _
  exact hsizes (posterSizes p)

/-- A poster has the tag of its language and one of the names of posters. -/
theorem mem_posterSlots {tag : String} {p : PosterSet} {entry : Slot × Image}
    (h : entry ∈ posterSlots tag p) : entry.1.tag = tag ∧ entry.1.name ∈ posterNames := by
  have hplace := (posterSlots_sublist tag p).subset (List.mem_map_of_mem h)
  obtain ⟨name, hname, hslot⟩ := List.mem_map.1 hplace
  rw [← hslot]
  exact ⟨rfl, hname⟩

/-- The second digit of a name, which tells the gallery from highlights and
posters. -/
def series (name : String) : Option Char := name.toList[1]?

/-- Gallery names are those of the second series. -/
theorem series_galleryName (index : Nat) : series (galleryName index) = some '2' := by
  unfold series galleryName
  rw [String.toList_append]
  rfl

/-- The names of highlights and posters are plain and not of the second series. -/
theorem plain_coverSlots {a : Artwork} {entry : Slot × Image} (h : entry ∈ a.coverSlots) :
    Plain entry.1.name ∧ series entry.1.name ≠ some '2' := by
  have hposters : ∀ name ∈ posterNames, Plain name ∧ series name ≠ some '2' := by decide
  rcases List.mem_append.1 h with hhighlight | hposter
  · obtain ⟨highlight, _, rfl⟩ := List.mem_map.1 hhighlight
    exact (by decide : Plain "01-highlight" ∧ series "01-highlight" ≠ some '2')
  · obtain ⟨posters, _, hentry⟩ := List.mem_flatMap.1 hposter
    exact hposters _ (mem_posterSlots hentry).2

theorem plain_slots {a : Artwork} {entry : Slot × Image} (h : entry ∈ a.slots) :
    Plain entry.1.name := by
  rcases List.mem_append.1 h with hcover | hgallery
  · exact (plain_coverSlots hcover).1
  · obtain ⟨image, _, rfl⟩ := List.mem_map.1 hgallery
    exact namesFile_galleryName image.2

/-- No two highlights or posters stand in one slot. -/
theorem nodup_coverSlots (a : Artwork) : (a.coverSlots.map Prod.fst).Nodup := by
  unfold coverSlots
  rw [List.map_append, List.map_map, List.map_flatMap, List.nodup_append]
  -- Highlights differ in their languages, posters in their sizes or their
  -- languages, and a highlight has another name than a poster.
  refine ⟨?_, List.nodup_flatMap.2 ⟨fun posters _ => ?_, ?_⟩, ?_⟩
  · refine List.pairwise_map.2 (a.highlight.ascending.imp fun hlt heq => ?_)
    exact String.ne_of_lt hlt (congrArg Slot.tag heq)
  · exact (posterSlots_sublist posters.1 posters.2).nodup
      ((by decide : posterNames.Nodup).map fun _ _ heq => congrArg Slot.name heq)
  · refine a.poster.ascending.imp fun {first second} hlt => ?_
    intro slot hfirst hsecond
    obtain ⟨entry, hentry, rfl⟩ := List.mem_map.1 hfirst
    obtain ⟨other, hother, heq⟩ := List.mem_map.1 hsecond
    have htag := (mem_posterSlots hother).1
    rw [heq, (mem_posterSlots hentry).1] at htag
    exact String.ne_of_lt hlt htag
  · intro slot hhighlight other hposter heq
    obtain ⟨highlight, _, rfl⟩ := List.mem_map.1 hhighlight
    obtain ⟨posters, _, hother⟩ := List.mem_flatMap.1 hposter
    obtain ⟨entry, hentry, rfl⟩ := List.mem_map.1 hother
    have hname := (mem_posterSlots hentry).2
    rw [← heq] at hname
    exact absurd hname (by decide : "01-highlight" ∉ posterNames)

/-- **No two images stand in one slot.** -/
theorem nodup_slots (a : Artwork) : (a.slots.map Prod.fst).Nodup := by
  unfold slots
  rw [List.map_append, List.nodup_append]
  refine ⟨nodup_coverSlots a, ?_, ?_⟩
  · unfold gallerySlots
    rw [List.map_map]
    refine List.pairwise_map.2 ((WeaveRule.pairwise_zipIdx a.gallery 0).imp fun hlt heq => ?_)
    have hindex := galleryName_injective (congrArg Slot.name heq)
    omega
  · intro slot hslot other hother heq
    obtain ⟨cover, hcover, rfl⟩ := List.mem_map.1 hslot
    obtain ⟨entry, hentry, rfl⟩ := List.mem_map.1 hother
    obtain ⟨image, _, rfl⟩ := List.mem_map.1 hentry
    have hseries := (plain_coverSlots hcover).2
    rw [heq] at hseries
    exact hseries (series_galleryName image.2)

/-! ## §4. Places. -/

/-- An image is placed if it can be fetched, with the extension of its address. -/
theorem place_eq_some_iff {directory name : String} {image placed : Image} :
    place directory name image = some placed ↔ ∃ address, image.source = some address ∧
      placed = ⟨directory ++ "/" ++ name ++ extensionOf address, image.url⟩ := by
  unfold place
  rw [Option.map_eq_some_iff]
  exact exists_congr fun address => and_congr_right' eq_comm

theorem place_eq_none_iff {directory name : String} {image : Image} :
    place directory name image = Option.none ↔ ¬ image.source.isSome = true := by
  unfold place
  rw [Option.map_eq_none_iff, Option.not_isSome_iff_eq_none]

/-- A placed image is in its place. -/
theorem place_placed {directory name : String} {image placed : Image}
    (h : place directory name image = some placed) : place directory name placed = some placed := by
  obtain ⟨address, haddress, rfl⟩ := place_eq_some_iff.1 h
  exact place_eq_some_iff.2 ⟨address, haddress, rfl⟩

/-- What is in its place stays there, if there is an image at all. -/
theorem bind_place_bind_place (directory name : String) (image : Option Image) :
    (image.bind (place directory name)).bind (place directory name)
      = image.bind (place directory name) := by
  cases hplaced : image.bind (place directory name) with
  | none => rfl
  | some placed =>
    obtain ⟨old, _, hplace⟩ := Option.bind_eq_some_iff.1 hplaced
    exact place_placed hplace

/-- Posters in their places stay there. -/
theorem placePosters_placePosters (directory : String) (p : PosterSet) :
    placePosters directory (placePosters directory p) = placePosters directory p := by
  unfold placePosters
  rw [PosterSet.mk.injEq]
  exact ⟨bind_place_bind_place _ _ _, bind_place_bind_place _ _ _, bind_place_bind_place _ _ _⟩

/-- The image of a slot with its place, if it can be fetched. -/
def placeSlot (directory : String) (entry : Slot × Image) : Option (Slot × Image) :=
  (place (languageDirectory directory entry.1.tag) entry.1.name entry.2).map (Prod.mk entry.1)

/-- The image has an address, not the empty text, and the path of its slot. -/
def InPlace (directory : String) (entry : Slot × Image) : Prop :=
  ∃ address, entry.2.url = some address ∧ address ≠ "" ∧
    entry.2.path = entry.1.path directory (extensionOf address)

/-- An image in its place can be fetched. -/
theorem InPlace.isSome {directory : String} {entry : Slot × Image} (h : InPlace directory entry) :
    entry.2.source.isSome = true := by
  obtain ⟨address, hurl, hne, _⟩ := h
  rw [Image.source_eq_some_iff.2 ⟨hurl, hne⟩]
  rfl

/-- The address of an image in its slot. -/
def addressed (entry : Slot × Image) : Slot × Option String := (entry.1, entry.2.url)

/-- A place keeps the slot and the address. -/
theorem of_placeSlot {directory : String} {entry placed : Slot × Image}
    (h : placeSlot directory entry = some placed) :
    InPlace directory placed ∧ addressed placed = addressed entry ∧
      entry.2.source.isSome = true := by
  obtain ⟨image, himage, rfl⟩ := Option.map_eq_some_iff.1 h
  obtain ⟨address, haddress, rfl⟩ := place_eq_some_iff.1 himage
  obtain ⟨hurl, hne⟩ := Image.source_eq_some_iff.1 haddress
  exact ⟨⟨address, hurl, hne, rfl⟩, rfl, Option.isSome_of_eq_some haddress⟩

theorem placeSlot_eq_none_iff {directory : String} {entry : Slot × Image} :
    placeSlot directory entry = Option.none ↔ ¬ entry.2.source.isSome = true := by
  unfold placeSlot
  rw [Option.map_eq_none_iff, place_eq_none_iff]

/-- The posters of a language are placed slot by slot. -/
theorem posterSlots_placePosters (directory tag : String) (p : PosterSet) :
    posterSlots tag (placePosters (languageDirectory directory tag) p)
      = (posterSlots tag p).filterMap (placeSlot directory) := by
  have hsize : ∀ (name : String) (image : Option Image),
      (image.bind (place (languageDirectory directory tag) name)).map (Prod.mk (Slot.mk tag name))
        = (image.map (Prod.mk (Slot.mk tag name))).bind (placeSlot directory) := by
    intro name image
    cases image <;> rfl
  unfold posterSlots
  rw [List.filterMap_filterMap]
  simp only [posterSizes, placePosters, List.filterMap_cons, List.filterMap_nil]
  rw [hsize, hsize, hsize]

/-- The posters of a language with their places, if there are any. -/
def placeSet (directory tag : String) (p : PosterSet) : Option PosterSet :=
  let placed := placePosters (languageDirectory directory tag) p
  if placed.isEmpty then Option.none else some placed

theorem assignPaths_eq (directory : String) (a : Artwork) :
    assignPaths directory a =
      ⟨SortedMap.filterMap
          (fun tag image => place (languageDirectory directory tag) "01-highlight" image)
          a.highlight,
        SortedMap.filterMap (placeSet directory) a.poster, placeGallery directory 0 a.gallery⟩ :=
  rfl

/-- A set of posters is kept unless none of them could be placed. -/
theorem placeSet_eq_some_iff {directory tag : String} {p placed : PosterSet} :
    placeSet directory tag p = some placed ↔
      placed = placePosters (languageDirectory directory tag) p ∧ placed.isEmpty = false := by
  unfold placeSet
  rw [Option.ite_none_left_eq_some, Bool.not_eq_true, Option.some.injEq, and_comm]
  constructor
  · rintro ⟨rfl, hfilled⟩
    exact ⟨rfl, hfilled⟩
  · rintro ⟨rfl, hfilled⟩
    exact ⟨rfl, hfilled⟩

/-- Images with a place can be fetched, so a set of them is empty only if there
is none. -/
theorem posterSlots_of_placeSet_none {directory tag : String} {p : PosterSet}
    (h : placeSet directory tag p = Option.none) :
    (posterSlots tag p).filterMap (placeSlot directory) = [] := by
  have hempty : (placePosters (languageDirectory directory tag) p).isEmpty = true := by
    refine Bool.of_not_eq_false fun hfilled => ?_
    rw [placeSet_eq_some_iff.2 ⟨rfl, hfilled⟩] at h
    cases h
  refine List.eq_nil_iff_forall_not_mem.2 fun entry hentry => ?_
  have himage : entry.2 ∈ (placePosters (languageDirectory directory tag) p).images := by
    rw [← map_snd_posterSlots tag, posterSlots_placePosters]
    exact List.mem_map_of_mem hentry
  obtain ⟨old, _, hplaced⟩ := List.mem_filterMap.1 hentry
  have hnone := List.all_eq_true.1 hempty entry.2 himage
  rw [Image.isEmpty_of_source (of_placeSlot hplaced).1.isSome] at hnone
  cases hnone

/-- **Highlights and posters are placed slot by slot.** -/
theorem coverSlots_assignPaths (directory : String) (a : Artwork) :
    (assignPaths directory a).coverSlots = a.coverSlots.filterMap (placeSlot directory) := by
  have hposters : ∀ entries : List (String × PosterSet),
      (entries.filterMap fun entry =>
          (placeSet directory entry.1 entry.2).map (Prod.mk entry.1)).flatMap
          (fun entry => posterSlots entry.1 entry.2)
        = (entries.flatMap fun entry => posterSlots entry.1 entry.2).filterMap
            (placeSlot directory) := by
    intro entries
    induction entries with
    | nil => rfl
    | cons entry rest ih =>
      rw [List.filterMap_cons, List.flatMap_cons, List.filterMap_append, ← ih]
      cases hplaced : placeSet directory entry.1 entry.2 with
      | none =>
        rw [posterSlots_of_placeSet_none hplaced]
        rfl
      | some placed =>
        obtain ⟨rfl, _⟩ := placeSet_eq_some_iff.1 hplaced
        rw [← posterSlots_placePosters]
        rfl
  have hhighlights : ∀ entries : List (String × Image),
      (entries.filterMap fun entry =>
          (place (languageDirectory directory entry.1) "01-highlight" entry.2).map
            (Prod.mk entry.1)).map (fun entry => (Slot.mk entry.1 "01-highlight", entry.2))
        = (entries.map fun entry => (Slot.mk entry.1 "01-highlight", entry.2)).filterMap
            (placeSlot directory) := by
    intro entries
    rw [List.map_filterMap, List.filterMap_map]
    exact List.filterMap_congr fun entry _ => Option.map_map ..
  unfold coverSlots
  rw [List.filterMap_append, ← hhighlights, ← hposters]
  rfl

theorem gallerySlots_cons (index : Nat) (image : Image) (rest : List Image) :
    gallerySlots index (image :: rest)
      = (⟨Translated.defaultTag, galleryName index⟩, image) :: gallerySlots (index + 1) rest :=
  rfl

/-- An image that is placed takes its number. -/
theorem placeGallery_cons_some {directory : String} {index : Nat} {image placed : Image}
    (h : place directory (galleryName index) image = some placed) (rest : List Image) :
    placeGallery directory index (image :: rest)
      = placed :: placeGallery directory (index + 1) rest := by
  rw [placeGallery, h]

/-- An image that is dropped leaves its number to the next one. -/
theorem placeGallery_cons_none {directory : String} {index : Nat} {image : Image}
    (h : place directory (galleryName index) image = Option.none) (rest : List Image) :
    placeGallery directory index (image :: rest) = placeGallery directory index rest := by
  rw [placeGallery, h]

/-- **The gallery is placed slot by slot**, after what cannot be fetched has
been left out. -/
theorem gallerySlots_placeGallery (directory : String) (index : Nat) (images : List Image) :
    gallerySlots index (placeGallery directory index images)
      = (gallerySlots index (images.filter (·.source.isSome))).filterMap (placeSlot directory) := by
  induction images generalizing index with
  | nil => rfl
  | cons image rest ih =>
    cases hplaced : place directory (galleryName index) image with
    | none =>
      rw [placeGallery_cons_none hplaced, List.filter_cons,
        if_neg (place_eq_none_iff.1 hplaced), ih]
    | some placed =>
      have hslot : placeSlot directory (⟨Translated.defaultTag, galleryName index⟩, image)
          = some (⟨Translated.defaultTag, galleryName index⟩, placed) :=
        congrArg (Option.map _) hplaced
      rw [placeGallery_cons_some hplaced, List.filter_cons, if_pos (of_placeSlot hslot).2.2,
        gallerySlots_cons, gallerySlots_cons, List.filterMap_cons_some hslot, ih]

/-- All slots after the assignment, from those before it. -/
theorem slots_assignPaths (directory : String) (a : Artwork) :
    (assignPaths directory a).slots
      = (a.coverSlots ++ gallerySlots 0 (a.gallery.filter (·.source.isSome))).filterMap
          (placeSlot directory) := by
  unfold slots
  rw [coverSlots_assignPaths, List.filterMap_append]
  exact congrArg _ (gallerySlots_placeGallery directory 0 a.gallery)

/-! ## §5. What is left. -/

/-- What is left of some slots are those that can be fetched. -/
theorem map_addressed_placeSlot (directory : String) (entries : List (Slot × Image)) :
    (entries.filterMap (placeSlot directory)).map addressed
      = (entries.filter (·.2.source.isSome)).map addressed := by
  induction entries with
  | nil => rfl
  | cons entry rest ih =>
    rw [List.filter_cons]
    cases hplaced : placeSlot directory entry with
    | none =>
      rw [List.filterMap_cons_none hplaced,
        if_neg (placeSlot_eq_none_iff.1 hplaced), ih]
    | some placed =>
      obtain ⟨_, haddressed, hsource⟩ := of_placeSlot hplaced
      rw [List.filterMap_cons_some hplaced, if_pos hsource, List.map_cons, List.map_cons,
        haddressed, ih]

/-- What is left of a gallery is what can be fetched, in its order. -/
theorem map_url_placeGallery (directory : String) (index : Nat) (images : List Image) :
    (placeGallery directory index images).map Image.url
      = (images.filter (·.source.isSome)).map Image.url := by
  induction images generalizing index with
  | nil => rfl
  | cons image rest ih =>
    rw [List.filter_cons]
    cases hplaced : place directory (galleryName index) image with
    | none =>
      rw [placeGallery_cons_none hplaced,
        if_neg (place_eq_none_iff.1 hplaced), ih]
    | some placed =>
      obtain ⟨address, haddress, rfl⟩ := place_eq_some_iff.1 hplaced
      rw [placeGallery_cons_some hplaced, if_pos (Option.isSome_of_eq_some haddress), List.map_cons,
        List.map_cons, ih]

/-- Every image that is left is in its place. -/
theorem inPlace_assignPaths {directory : String} {a : Artwork} {entry : Slot × Image}
    (h : entry ∈ (assignPaths directory a).slots) : InPlace directory entry := by
  rw [slots_assignPaths] at h
  obtain ⟨old, _, hplaced⟩ := List.mem_filterMap.1 h
  exact (of_placeSlot hplaced).1

/-- **Images in place have paths of their own.** -/
theorem nodup_paths {directory : String} {a : Artwork}
    (h : ∀ entry ∈ a.slots, InPlace directory entry) : (a.images.map Image.path).Nodup := by
  rw [← map_snd_slots, List.map_map]
  refine List.pairwise_map.2 ((List.pairwise_map.1 (nodup_slots a)).imp_of_mem ?_)
  intro entry other hentry hother hne hpath
  obtain ⟨address, _, _, hat⟩ := h entry hentry
  obtain ⟨last, _, _, hlast⟩ := h other hother
  have hpaths : entry.1.path directory (extensionOf address)
      = other.1.path directory (extensionOf last) := hat.symm.trans (hpath.trans hlast)
  exact hne (Slot.eq_of_path (plain_slots hentry) (plain_slots hother)
    (isExtension_extensionOf address) (isExtension_extensionOf last) hpaths)

/-- A set of posters that is left has an image. -/
theorem filled_of_mem_assignPaths {directory : String} {a : Artwork} {posters : PosterSet}
    (h : posters ∈ SortedMap.values (assignPaths directory a).poster) : posters.images ≠ [] := by
  obtain ⟨entry, hentry, rfl⟩ := List.mem_map.1 h
  obtain ⟨old, _, hplaced⟩ := List.mem_filterMap.1 hentry
  obtain ⟨placed, hset, rfl⟩ := Option.map_eq_some_iff.1 hplaced
  have hfilled := (placeSet_eq_some_iff.1 hset).2
  intro hnone
  rw [PosterSet.isEmpty, hnone] at hfilled
  cases hfilled

/-! ## §6. Places assigned twice. -/

/-- A change that keeps its own results changes nothing the second time. -/
theorem filterMap_filterMap_self {α : Type} {f : String → α → Option α}
    (h : ∀ key old new, f key old = some new → f key new = some new) (m : SortedMap α) :
    SortedMap.filterMap f (SortedMap.filterMap f m) = SortedMap.filterMap f m := by
  refine SortedMap.ext ?_
  have hentries : ∀ m : SortedMap α, (SortedMap.filterMap f m).entries
      = m.entries.filterMap fun entry => (f entry.1 entry.2).map (Prod.mk entry.1) := fun _ => rfl
  rw [hentries, hentries, List.filterMap_filterMap]
  refine List.filterMap_congr fun entry _ => ?_
  cases hnew : f entry.1 entry.2 with
  | none => rfl
  | some new =>
    rw [Option.map_some, Option.bind_some, h entry.1 entry.2 new hnew]
    rfl

/-- A gallery in its place stays there. -/
theorem placeGallery_placeGallery (directory : String) (index : Nat) (images : List Image) :
    placeGallery directory index (placeGallery directory index images)
      = placeGallery directory index images := by
  induction images generalizing index with
  | nil => rfl
  | cons image rest ih =>
    cases hplaced : place directory (galleryName index) image with
    | none => rw [placeGallery_cons_none hplaced, ih]
    | some placed =>
      rw [placeGallery_cons_some hplaced, placeGallery_cons_some (place_placed hplaced), ih]

/-- **Places that are assigned again stay as they are.** -/
theorem assignPaths_assignPaths (directory : String) (a : Artwork) :
    assignPaths directory (assignPaths directory a) = assignPaths directory a := by
  have hhighlight : ∀ tag old new,
      place (languageDirectory directory tag) "01-highlight" old = some new →
        place (languageDirectory directory tag) "01-highlight" new = some new :=
    fun _ _ _ => place_placed
  have hposters : ∀ tag old new, placeSet directory tag old = some new →
      placeSet directory tag new = some new := by
    intro tag old new hnew
    obtain ⟨rfl, hfilled⟩ := placeSet_eq_some_iff.1 hnew
    exact placeSet_eq_some_iff.2 ⟨(placePosters_placePosters _ old).symm, hfilled⟩
  rw [assignPaths_eq directory a, assignPaths_eq]
  dsimp only
  rw [filterMap_filterMap_self hhighlight, filterMap_filterMap_self hposters,
    placeGallery_placeGallery]

/-! ## §7. The main result. -/

/-- What is asked of places below a directory. -/
structure Assigned (directory : String) (before after : Artwork) : Prop where
  /-- Of the highlights and posters those are left that have an address, not the
  empty text, each in its language and size and with its address. -/
  covers : after.coverSlots.map addressed
    = (before.coverSlots.filter fun entry => entry.2.url.any (· ≠ "")).map addressed
  /-- So are those of the gallery, in their order. -/
  gallery : after.gallery.map Image.url
    = (before.gallery.filter fun image => image.url.any (· ≠ "")).map Image.url
  /-- No set of posters is left empty. -/
  posters : ∀ posters ∈ SortedMap.values after.poster, posters.images ≠ []
  /-- Every image has an address and the path of its slot. -/
  inPlace : ∀ entry ∈ after.slots, InPlace directory entry
  /-- The images of the gallery are numbered by their positions. -/
  numbered : ∀ index image, after.gallery[index]? = some image → ∃ extension,
    image.path = directory ++ "/" ++ galleryName index ++ extension ∧ IsExtension extension
  /-- No two images have one path. -/
  distinct : (after.images.map Image.path).Nodup

/-- **Every image that can be fetched gets a file of its own**, the others are
dropped, and places that are assigned again stay as they are. -/
theorem assigned_assignPaths (directory : String) (a : Artwork) :
    Assigned directory a (assignPaths directory a) ∧
      assignPaths directory (assignPaths directory a) = assignPaths directory a := by
  refine ⟨⟨?_, ?_, fun _ => filled_of_mem_assignPaths, fun _ => inPlace_assignPaths, ?_,
    nodup_paths fun _ => inPlace_assignPaths⟩, assignPaths_assignPaths directory a⟩
  · simp only [coverSlots_assignPaths, map_addressed_placeSlot, Image.isSome_source]
  · have hgallery := map_url_placeGallery directory 0 a.gallery
    simp only [Image.isSome_source] at hgallery
    exact hgallery
  · intro index image himage
    have hslot : (⟨Translated.defaultTag, galleryName index⟩, image)
        ∈ (assignPaths directory a).slots := by
      refine List.mem_append_right _ (List.mem_map.2 ⟨(image, index), ?_, rfl⟩)
      exact List.mem_zipIdx_iff_getElem?.2 himage
    obtain ⟨address, _, _, hpath⟩ := inPlace_assignPaths hslot
    exact ⟨extensionOf address, hpath, isExtension_extensionOf address⟩

end Artwork

end FilmCatalog
