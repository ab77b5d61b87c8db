/-
  FilmCatalog.Proofs.Artwork.Loading
  ──────────────────────────────────
  **LOADED IMAGES ARE TIDY.**

  An address that is stored next to a path is never the empty text, and a set
  of posters without any image is not there at all.  This holds for every test
  of remote addresses that the empty text fails.
-/
import FilmCatalog.Artwork.Basic
import FilmCatalog.Proofs.Loading

namespace FilmCatalog

open Loaded

variable {isRemote : String → Bool}

/-- The address of an image is not the empty text. -/
def Image.Tidy (i : Image) : Prop := i.url ≠ some ""

/-- There is an image in the set, and all of them are tidy. -/
def PosterSet.Tidy (p : PosterSet) : Prop := p.images ≠ [] ∧ ∀ image ∈ p.images, image.Tidy

/-- All images and sets of posters are tidy. -/
structure Artwork.Tidy (a : Artwork) : Prop where
  highlight : Translated.Forall Image.Tidy a.highlight
  poster : Translated.Forall PosterSet.Tidy a.poster
  gallery : ∀ image ∈ a.gallery, image.Tidy

namespace Image

theorem ensures_load (hempty : isRemote "" = false) (old : Image) (node : Json) :
    (load isRemote old node).Ensures Tidy := by
  refine ensures_loadScalar fun image hread => ?_
  unfold Tidy
  split at hread
  · split at hread
    · rename_i text hremote
      cases hread
      -- Only a remote address is taken for one, and the empty text is none.
      intro hurl
      rw [Option.some.injEq] at hurl
      rw [hurl, hempty] at hremote
      cases hremote
    · cases hread
      simp
  · cases hread
    split
    · simp
    · rename_i hurl
      simpa using hurl
  · cases hread

end Image

namespace PosterSet

theorem mem_images {p : PosterSet} {image : Image} :
    image ∈ p.images ↔ p.small = some image ∨ p.normal = some image ∨ p.large = some image := by
  obtain ⟨small, normal, large⟩ := p
  simp [images, eq_comm]

theorem images_eq_nil_iff {p : PosterSet} :
    p.images = [] ↔ p.small = .none ∧ p.normal = .none ∧ p.large = .none := by
  obtain ⟨small, normal, large⟩ := p
  cases small <;> cases normal <;> cases large <;> simp [images]

/-- Some sizes after their load: all absent if there is no image, and tidy
images else. -/
def Sizes (outcome : Outcome) (sizes : List (Option Image)) : Prop :=
  ((∀ size ∈ sizes, size = .none) → outcome = .absent) ∧
    ∀ size ∈ sizes, ∀ image ∈ size, image.Tidy

theorem reports_size (hempty : isRemote "" = false) {before : Outcome}
    {sizes : List (Option Image)} (h : Sizes before sizes) (fields : Json.Fields) (key : String)
    (old : Option Image) : (loadOptional (Image.load isRemote) default fields key old).Reports
      fun after size => Sizes (before.absorb after) (sizes ++ [size]) := by
  have htidy : (loadOptional (Image.load isRemote) default fields key old).Ensures
      fun size => ∀ image ∈ size, Image.Tidy image :=
    ensures_loadOptional fun node => (Image.ensures_load hempty default node).yields
  intro after hresult
  refine ⟨fun hnone => ?_, fun size hsize => ?_⟩
  · obtain ⟨hsizes, hsize⟩ := List.forall_mem_append.1 hnone
    rw [h.1 hsizes, (loadOptional_absent_iff hresult).2 (hsize _ (List.mem_singleton.2 rfl))]
    rfl
  · rcases List.mem_append.1 hsize with hsize | hsize
    · exact h.2 size hsize
    · rw [List.mem_singleton.1 hsize]
      exact htidy after hresult

/-- A set that was found has an image. -/
theorem yields_load (hempty : isRemote "" = false) (old : PosterSet) (node : Json) :
    (load isRemote old node).Yields Tidy := by
  cases node with
  | object fields =>
    have hsizes : (load isRemote old (.object fields)).Reports
        fun outcome p => Sizes outcome [p.small, p.normal, p.large] := by
      unfold load withFields
      refine reports_andThen (R := fun outcome (p : PosterSet) => Sizes outcome [p.small, p.normal]) ?_
        fun _ p h => reports_size hempty h fields "large" p.large
      refine reports_andThen (R := fun outcome (p : PosterSet) => Sizes outcome [p.small]) ?_
        fun _ p h => reports_size hempty h fields "normal" p.normal
      refine reports_andThen (R := fun outcome _ => Sizes outcome []) ?_
        fun _ p h => reports_size hempty h fields "small" p.small
      intro outcome hresult
      cases hresult
      exact ⟨fun _ => rfl, by simp⟩
    intro outcome hresult hpresent
    obtain ⟨habsent, htidy⟩ := hsizes outcome hresult
    -- Without an image all three sizes were absent, and then nothing was found.
    refine ⟨fun hnil => hpresent (habsent ?_), fun image himage => ?_⟩
    · obtain ⟨hsmall, hnormal, hlarge⟩ := images_eq_nil_iff.1 hnil
      simpa using ⟨hsmall, hnormal, hlarge⟩
    · rcases mem_images.1 himage with h | h | h
      · exact htidy _ (by simp) image h
      · exact htidy _ (by simp) image h
      · exact htidy _ (by simp) image h
  | _ => exact ensures_failed.yields

end PosterSet

namespace Artwork

theorem tidy_none : Tidy none where
  highlight := Translated.forall_empty
  poster := Translated.forall_empty
  gallery := by intro image himage; cases himage

/-- **Loaded images are tidy.** -/
theorem ensures_load (hempty : isRemote "" = false) (old : Artwork) (node : Json) :
    (load isRemote old node).Ensures Tidy := by
  have himage : ∀ node, (Image.load isRemote default node).Yields Image.Tidy := fun node =>
    (Image.ensures_load hempty default node).yields
  refine ensures_withFields fun fields _ => ?_
  have hstart : (done none .absent).Ensures Tidy := ensures_done tidy_none
  have hhighlight := ensures_andThen hstart fun a ha => ensures_into
    ((Translated.ensures_load himage fields "highlight" ha.highlight).imp
      fun highlight h => Tidy.mk (a := { a with highlight }) h ha.poster ha.gallery)
  have hposter := ensures_andThen hhighlight fun a ha => ensures_into
    ((Translated.ensures_load (PosterSet.yields_load hempty default) fields "poster" ha.poster).imp
      fun poster h => Tidy.mk (a := { a with poster }) ha.highlight h ha.gallery)
  refine ensures_andThen hposter fun a ha => ensures_into ?_
  have hgallery : (loadField (loadList (Image.load isRemote) default) fields "gallery"
      a.gallery).Ensures fun gallery => ∀ image ∈ gallery, image.Tidy :=
    ensures_loadField ha.gallery fun node _ => ensures_loadList himage
  exact hgallery.imp fun gallery h => ⟨ha.highlight, ha.poster, h⟩

end Artwork

end FilmCatalog
