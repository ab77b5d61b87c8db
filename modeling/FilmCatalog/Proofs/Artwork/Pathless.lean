/-
  FilmCatalog.Proofs.Artwork.Pathless
  ───────────────────────────────────
  **IMAGES WITHOUT A PATH AND THE DIRECTORY OF THE GALLERY.**

  An image that has not been fetched yet has an address and no path.  It
  should have no say in where the gallery is, but it has: the shared start is
  cut down path by path, and an empty path is only passed over as long as no
  other has been met.  Behind one that is not empty it leaves nothing
  (`sharedStart_of_hasGap`), and the gallery loses its directory.

  So images without a path do no harm exactly if they all come first, or if the
  others have no directory in common anyway.  The order of the images does not
  matter exactly if each of them has a path, or again if there is no directory
  to lose (`sharedDirectory_independent_iff`).
-/
import FilmCatalog.Proofs.Artwork.Directories
import FilmCatalog.Proofs.Artwork.SelfMerge

namespace FilmCatalog.Artwork

variable {paths others : List String}

/-! ## §1. Paths that are not empty. -/

/-- The paths that are not empty. -/
def filled (paths : List String) : List String := paths.filter (· ≠ "")

theorem mem_filled {path : String} : path ∈ filled paths ↔ path ∈ paths ∧ path ≠ "" := by
  simp [filled]

theorem filled_eq_self (h : "" ∉ paths) : filled paths = paths := by
  apply List.filter_eq_self.2
  intro path hpath
  apply decide_eq_true
  intro hempty
  exact h (hempty ▸ hpath)

/-- **Without empty paths, the order does not matter**: what paths share is told
by the starts that all of them have. -/
theorem sharedStart_perm (h : paths.Perm others) (hfilled : ∀ path ∈ paths, path ≠ "") :
    sharedStart paths = sharedStart others := by
  by_cases hnil : paths = []
  · subst hnil
    rw [List.nil_perm.1 h]
  · have hothers : ∀ path ∈ others, path ≠ "" := fun path hpath => hfilled path (h.mem_iff.2 hpath)
    have hsome : others ≠ [] := fun heq => hnil (List.perm_nil.1 (heq ▸ h))
    -- Both are starts that all paths have, so each of them begins the other.
    have hstarts : ∀ start, start <+: sharedStart paths ↔ start <+: sharedStart others := by
      intro start
      rw [prefix_sharedStart_iff hnil hfilled, prefix_sharedStart_iff hsome hothers]
      simp only [h.mem_iff]
    have hleft : sharedStart paths <+: sharedStart others := (hstarts _).1 (List.prefix_refl _)
    have hright : sharedStart others <+: sharedStart paths := (hstarts _).2 (List.prefix_refl _)
    exact hleft.eq_of_length_le hright.length_le

theorem sharedStart_of_pathless (h : ¬ HasPath paths) : sharedStart paths = [] := by
  have hnone : sharedStart (paths ++ []) = sharedStart [] := sharedStart_append_of_pathless h []
  rw [List.append_nil] at hnone
  exact hnone

/-! ## §2. An empty path behind one that is not empty. -/

/-- An empty path stands behind one that is not empty. -/
def HasGap (paths : List String) : Prop :=
  ∃ before after, paths = before ++ "" :: after ∧ HasPath before

/-- Nothing is shared with an empty path. -/
theorem sharedStart_of_hasGap (h : HasGap paths) : sharedStart paths = [] := by
  obtain ⟨before, after, rfl, hbefore⟩ := h
  rw [sharedStart_append_of_hasPath hbefore]
  -- What is shared begins every path behind the first, and so the empty one.
  apply List.prefix_nil.1
  exact (prefix_shareWith_iff.1 (List.prefix_refl _)).2 "" List.mem_cons_self

/-- Empty paths that come first are passed over. -/
theorem sharedStart_of_not_hasGap (h : ¬ HasGap paths) :
    sharedStart paths = sharedStart (filled paths) := by
  induction paths with
  | nil => rfl
  | cons path rest ih =>
    by_cases hpath : path = ""
    · have hrest : ¬ HasGap rest := by
        intro hgap
        obtain ⟨before, after, rfl, other, hother, hne⟩ := hgap
        exact h ⟨path :: before, after, rfl, other, List.mem_cons_of_mem _ hother, hne⟩
      have hskip : filled (path :: rest) = filled rest :=
        List.filter_cons_of_neg (by simpa using hpath)
      rw [hskip, sharedStart, if_pos hpath, ih hrest]
    · -- From here on there is no empty path, so nothing is left out.
      have hrest : "" ∉ path :: rest := by
        intro hmem
        rcases List.mem_cons.1 hmem with hempty | hmem
        · exact hpath hempty.symm
        · obtain ⟨before, after, rfl⟩ := List.append_of_mem hmem
          exact h ⟨path :: before, after, rfl, path, List.mem_cons_self, hpath⟩
      rw [filled_eq_self hrest]

/-! ## §3. The directory. -/

theorem sharedDirectory_congr (h : sharedStart paths = sharedStart others) :
    sharedDirectory paths = sharedDirectory others := by
  unfold sharedDirectory
  rw [h]

theorem sharedDirectory_of_nil (h : sharedStart paths = []) : sharedDirectory paths = "" := by
  apply String.toList_inj.1
  rw [toList_sharedDirectory, h]
  rfl

theorem sharedDirectory_of_hasGap (h : HasGap paths) : sharedDirectory paths = "" :=
  sharedDirectory_of_nil (sharedStart_of_hasGap h)

theorem sharedDirectory_of_not_hasGap (h : ¬ HasGap paths) :
    sharedDirectory paths = sharedDirectory (filled paths) :=
  sharedDirectory_congr (sharedStart_of_not_hasGap h)

/-- The paths that are not empty have one directory, in whatever order they
stand. -/
theorem sharedDirectory_filled_perm (h : paths.Perm others) :
    sharedDirectory (filled paths) = sharedDirectory (filled others) := by
  apply sharedDirectory_congr
  apply sharedStart_perm (h.filter _)
  intro path hpath
  exact (mem_filled.1 hpath).2

/-- Where the paths that are not empty have no directory, there is none. -/
theorem sharedDirectory_eq_empty (h : sharedDirectory (filled paths) = "") :
    sharedDirectory paths = "" := by
  by_cases hgap : HasGap paths
  · exact sharedDirectory_of_hasGap hgap
  · rw [sharedDirectory_of_not_hasGap hgap, h]

/-! ## §4. Orders with the empty paths at one end. -/

/-- The empty paths. -/
def blanks (paths : List String) : List String := paths.filter fun path => !decide (path ≠ "")

theorem filled_append_blanks_perm (paths : List String) : (filled paths ++ blanks paths).Perm paths :=
  List.filter_append_perm _ paths

theorem eq_empty_of_mem_blanks {path : String} (h : path ∈ blanks paths) : path = "" := by
  simpa using (List.mem_filter.1 h).2

/-- At the start, empty paths are passed over. -/
theorem sharedDirectory_blanks_first (paths : List String) :
    sharedDirectory (blanks paths ++ filled paths) = sharedDirectory (filled paths) := by
  apply sharedDirectory_congr
  apply sharedStart_append_of_pathless
  intro hhas
  obtain ⟨path, hpath, hne⟩ := hhas
  exact hne (eq_empty_of_mem_blanks hpath)

/-- At the end, one of them is enough to leave no directory. -/
theorem sharedDirectory_blanks_last (h : "" ∈ paths) :
    sharedDirectory (filled paths ++ blanks paths) = "" := by
  have hblank : "" ∈ blanks paths := List.mem_filter.2 ⟨h, by simp⟩
  by_cases hpath : HasPath (filled paths)
  · obtain ⟨front, back, hsplit⟩ := List.append_of_mem hblank
    apply sharedDirectory_of_hasGap
    rw [hsplit, ← List.append_assoc]
    obtain ⟨path, hmem, hne⟩ := hpath
    exact ⟨filled paths ++ front, back, rfl, path, List.mem_append_left _ hmem, hne⟩
  · -- There is no path at all, so nothing is shared.
    apply sharedDirectory_of_nil
    apply sharedStart_of_pathless
    intro hhas
    obtain ⟨path, hmem, hne⟩ := hhas
    rcases List.mem_append.1 hmem with hmem | hmem
    · exact hpath ⟨path, hmem, hne⟩
    · exact hne (eq_empty_of_mem_blanks hmem)

/-- **When the directory of a gallery depends on images without a path.**  An
empty path behind one that is not empty takes the directory away; otherwise the
paths that are not empty decide, in whatever order they stand.  So the empty
paths do not count exactly if all of them come first or there is no directory
to lose, and the order does not count exactly if there are none of them or no
directory to lose. -/
theorem sharedDirectory_independent_iff (paths : List String) :
    (sharedDirectory paths = sharedDirectory (filled paths) ∨
      (HasGap paths ∧ sharedDirectory paths = "")) ∧
    (∀ others, others.Perm paths →
      sharedDirectory (filled others) = sharedDirectory (filled paths)) ∧
    (sharedDirectory paths = sharedDirectory (filled paths) ↔
      ¬ HasGap paths ∨ sharedDirectory (filled paths) = "") ∧
    ((∀ others, others.Perm paths → sharedDirectory others = sharedDirectory paths) ↔
      "" ∉ paths ∨ sharedDirectory (filled paths) = "") := by
  refine ⟨?_, fun others h => sharedDirectory_filled_perm h, ?_, ?_⟩
  · by_cases hgap : HasGap paths
    · exact .inr ⟨hgap, sharedDirectory_of_hasGap hgap⟩
    · exact .inl (sharedDirectory_of_not_hasGap hgap)
  · constructor
    · intro hsame
      by_cases hgap : HasGap paths
      · right
        rw [← hsame, sharedDirectory_of_hasGap hgap]
      · exact .inl hgap
    · rintro (hgap | hnone)
      · exact sharedDirectory_of_not_hasGap hgap
      · rw [hnone, sharedDirectory_eq_empty hnone]
  · constructor
    · -- With an empty path there is no directory in one order, so there is none in the other.
      intro hsame
      by_cases hempty : "" ∈ paths
      · right
        have hlast := hsame _ (filled_append_blanks_perm paths)
        have hfirst := hsame _ (List.perm_append_comm.trans (filled_append_blanks_perm paths))
        rw [sharedDirectory_blanks_last hempty] at hlast
        rw [sharedDirectory_blanks_first, ← hlast] at hfirst
        exact hfirst
      · exact .inl hempty
    · rintro (hfilled | hnone) others hperm
      · have hothers : "" ∉ others := fun hmem => hfilled (hperm.mem_iff.1 hmem)
        rw [← filled_eq_self hfilled, ← filled_eq_self hothers]
        exact sharedDirectory_filled_perm hperm
      · rw [sharedDirectory_eq_empty hnone]
        apply sharedDirectory_eq_empty
        rw [sharedDirectory_filled_perm hperm, hnone]

/-- A document with a directory and one gallery image that has no file yet. -/
def unfetchedDocument : Json :=
  .object [("gallery", .array
      [.array [.string "alien/02-gallery-00.jpg", .string "https://example.org/a.jpg"],
        .string "https://example.org/b.jpg"]),
    ("highlight", .string "alien/01-highlight.jpg")]

/-- **An image without a path moves the gallery**: the others share a directory,
and they have it in another order too, but the merge with nothing leaves it and
removes the file that is there. -/
theorem gallery_leaves_directory :
    (ofJson unfetchedDocument).result = .ok .unchanged ∧
    (ofJson unfetchedDocument).value.images.map Image.path
      = ["alien/01-highlight.jpg", "alien/02-gallery-00.jpg", ""] ∧
    sharedDirectory ["alien/01-highlight.jpg", "alien/02-gallery-00.jpg", ""] = "" ∧
    sharedDirectory (filled ["alien/01-highlight.jpg", "alien/02-gallery-00.jpg", ""]) = "alien/" ∧
    sharedDirectory ["", "alien/01-highlight.jpg", "alien/02-gallery-00.jpg"] = "alien/" ∧
    .remove "alien/02-gallery-00.jpg" ∈ (ofJson unfetchedDocument).value.plan
      ((ofJson unfetchedDocument).value.merge none).value := by
  have hmerged : ((ofJson unfetchedDocument).value.merge none).value
      = ⟨(ofJson unfetchedDocument).value.highlight, .empty,
          galleryOf "" (fun url => (Entries.get? url
            [("https://example.org/a.jpg", "alien/02-gallery-00.jpg"),
              ("https://example.org/b.jpg", "")]).getD "") 0
            (WeaveRule.texts.mergeLists ["https://example.org/a.jpg", "https://example.org/b.jpg"] [])⟩ := by
    rfl
  refine ⟨by decide +kernel, by decide +kernel, by decide +kernel, by decide +kernel,
    by decide +kernel, ?_⟩
  rw [hmerged, WeaveRule.texts.mergeLists_nil_right]
  decide +kernel

end FilmCatalog.Artwork
