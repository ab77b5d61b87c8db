/-
  FilmCatalog.Proofs.Artwork.Directories
  ──────────────────────────────────────
  **THE DIRECTORY OF A GALLERY.**

  A merge puts the gallery into the directory that the other images and the
  stored gallery share.  The next merge looks for this directory again, now
  with the files that the first one named.  It finds it (`FoundAgain`):

    • if there is a directory, unless two slashes stand at its end,
    • if there is none, only where highlights and posters have paths and these
      do not all start like the name of a gallery file.

  Without a path outside of the gallery, what the files share is their own
  name, and that is then taken for a directory.
-/
import FilmCatalog.Proofs.Artwork.FileNames

namespace FilmCatalog.Artwork

/-! ## §1. What paths share. -/

/-- What some more paths leave of a start. -/
def shareWith (shared : List Char) (paths : List String) : List Char :=
  paths.foldl (fun shared path => Text.commonStart shared path.toList) shared

/-- What paths share is the longest start that all of them have. -/
theorem prefix_shareWith_iff {start shared : List Char} {paths : List String} :
    start <+: shareWith shared paths ↔
      start <+: shared ∧ ∀ path ∈ paths, start <+: path.toList := by
  induction paths generalizing shared with
  | nil => simp [shareWith]
  | cons path rest ih =>
    show start <+: shareWith (Text.commonStart shared path.toList) rest ↔ _
    rw [ih, Text.prefix_commonStart_iff, List.forall_mem_cons, and_assoc]

/-- Some path is not empty. -/
def HasPath (paths : List String) : Prop := ∃ path ∈ paths, path ≠ ""

/-- Paths that are empty have no part in what is shared. -/
theorem sharedStart_append_of_pathless {paths : List String} (h : ¬ HasPath paths)
    (others : List String) : sharedStart (paths ++ others) = sharedStart others := by
  induction paths with
  | nil => rfl
  | cons path rest ih =>
    have hpath : path = "" :=
      Decidable.byContradiction fun hne => h ⟨path, List.mem_cons_self, hne⟩
    have hrest : ¬ HasPath rest := fun ⟨other, hother, hne⟩ =>
      h ⟨other, List.mem_cons_of_mem _ hother, hne⟩
    rw [List.cons_append, sharedStart, if_pos hpath, ih hrest]

/-- Further paths can only shorten what is shared. -/
theorem sharedStart_append_of_hasPath {paths : List String} (h : HasPath paths)
    (others : List String) : sharedStart (paths ++ others) = shareWith (sharedStart paths) others := by
  induction paths with
  | nil =>
    obtain ⟨path, hpath, _⟩ := h
    cases hpath
  | cons path rest ih =>
    rw [List.cons_append, sharedStart, sharedStart]
    by_cases hpath : path = ""
    · -- An empty path at the start does not count, so the other one comes later.
      obtain ⟨other, hother, hne⟩ := h
      rcases List.mem_cons.1 hother with rfl | hother
      · exact absurd hpath hne
      · rw [if_pos hpath, if_pos hpath, ih ⟨other, hother, hne⟩]
    · rw [if_neg hpath, if_neg hpath, List.foldl_append]
      rfl

/-- **What paths share that are not empty**: the starts that all of them have. -/
theorem prefix_sharedStart_iff {start : List Char} {paths : List String} (hsome : paths ≠ [])
    (hfilled : ∀ path ∈ paths, path ≠ "") :
    start <+: sharedStart paths ↔ ∀ path ∈ paths, start <+: path.toList := by
  obtain ⟨first, rest, rfl⟩ := List.exists_cons_of_ne_nil hsome
  rw [sharedStart, if_neg (hfilled first List.mem_cons_self), List.forall_mem_cons]
  exact prefix_shareWith_iff

/-- **What paths share with further ones that are not empty.** -/
theorem prefix_sharedStart_append_iff {start : List Char} {paths others : List String}
    (hothers : others ≠ []) (hfilled : ∀ path ∈ others, path ≠ "") :
    start <+: sharedStart (paths ++ others) ↔
      (HasPath paths → start <+: sharedStart paths) ∧ ∀ path ∈ others, start <+: path.toList := by
  by_cases hpaths : HasPath paths
  · rw [sharedStart_append_of_hasPath hpaths, prefix_shareWith_iff]
    simp only [hpaths, true_imp_iff]
  · rw [sharedStart_append_of_pathless hpaths]
    simp only [hpaths, false_imp_iff, true_and]
    exact prefix_sharedStart_iff hothers hfilled

/-- Further paths can only shorten what is shared. -/
theorem sharedStart_append_prefix {paths : List String} (h : HasPath paths) (others : List String) :
    sharedStart (paths ++ others) <+: sharedStart paths := by
  rw [sharedStart_append_of_hasPath h]
  exact (prefix_shareWith_iff.1 (List.prefix_refl _)).1

/-- What is shared is a start of every path that is not empty. -/
theorem sharedStart_append_prefix_of_mem {paths others : List String}
    (hfilled : ∀ path ∈ others, path ≠ "") {path : String} (hpath : path ∈ others) :
    sharedStart (paths ++ others) <+: path.toList :=
  ((prefix_sharedStart_append_iff (List.ne_nil_of_mem hpath) hfilled).1 (List.prefix_refl _)).2
    path hpath

/-! ## §2. The directory of what is shared. -/

/-- The directory that a shared start stands for: what comes before the last
slash, or all of it if there is none. -/
def directoryOf (shared : List Char) : List Char :=
  match Text.splitLast '/' shared with
  | some (before, _) => dropSlash before
  | .none => shared

/-- A directory with a slash at its end, or nothing. -/
def closed (directory : List Char) : List Char :=
  if directory = [] then [] else directory ++ ['/']

/-- The shared directory is that of the shared start, with a slash at its end. -/
theorem toList_sharedDirectory (paths : List String) :
    (sharedDirectory paths).toList = closed (directoryOf (sharedStart paths)) := by
  show String.toList (if directoryOf (sharedStart paths) = [] then ""
    else String.ofList (directoryOf (sharedStart paths) ++ ['/'])) = _
  unfold closed
  split
  · rfl
  · rw [String.toList_ofList]

/-- A shared directory ends with a slash, if there is one. -/
theorem sharedDirectory_cases (paths : List String) :
    (sharedDirectory paths).toList = [] ∨ (sharedDirectory paths).toList.getLast? = some '/' := by
  rw [toList_sharedDirectory]
  unfold closed
  split
  · exact .inl rfl
  · exact .inr List.getLast?_concat

theorem directoryOf_plain {shared : List Char} (h : '/' ∉ shared) : directoryOf shared = shared := by
  unfold directoryOf
  rw [Text.splitLast_eq_none h]

theorem directoryOf_append (before : List Char) {after : List Char} (h : '/' ∉ after) :
    directoryOf (before ++ '/' :: after) = dropSlash before := by
  unfold directoryOf
  rw [Text.splitLast_append before h]

theorem closed_of_ne_nil {directory : List Char} (h : directory ≠ []) :
    closed directory = directory ++ ['/'] := if_neg h

/-- A directory is told with its slash. -/
theorem closed_inj {directory other : List Char} : closed directory = closed other ↔ directory = other := by
  constructor
  · intro h
    by_cases hdirectory : directory = []
    · by_cases hother : other = []
      · rw [hdirectory, hother]
      · rw [hdirectory, closed_of_ne_nil hother] at h
        simp [closed] at h
    · by_cases hother : other = []
      · rw [hother, closed_of_ne_nil hdirectory] at h
        simp [closed] at h
      · rw [closed_of_ne_nil hdirectory, closed_of_ne_nil hother] at h
        exact List.append_cancel_right h
  · rintro rfl
    rfl

/-- A text without a slash at its end loses none. -/
theorem dropSlash_eq_self_iff {text : List Char} :
    dropSlash text = text ↔ text.getLast? ≠ some '/' := by
  unfold dropSlash
  split
  · rename_i hslash
    refine ⟨fun hsame => ?_, fun hne => absurd hslash hne⟩
    have hlength := congrArg List.length hsame
    have hne : text ≠ [] := by
      rintro rfl
      cases hslash
    rw [List.length_dropLast] at hlength
    have hpos := List.length_pos_iff.2 hne
    omega
  · rename_i hslash
    exact ⟨fun _ => hslash, fun _ => rfl⟩

/-- A directory that is not empty is part of what is shared, with a slash after
it or as a whole. -/
theorem directoryOf_cases {shared : List Char} (h : directoryOf shared ≠ []) :
    directoryOf shared ++ ['/'] <+: shared ∨
      (directoryOf shared = shared ∧ '/' ∉ shared) := by
  by_cases hslash : '/' ∈ shared
  · obtain ⟨before, after, rfl, hafter⟩ := Text.exists_last hslash
    rw [directoryOf_append before hafter]
    refine .inl ?_
    unfold dropSlash
    split
    · -- The slash that was dropped stands right after the directory.
      rename_i hlast
      obtain ⟨front, rfl⟩ := List.getLast?_eq_some_iff.1 hlast
      rw [List.dropLast_concat]
      exact List.prefix_append _ _
    · exact ⟨after, by simp⟩
  · exact .inr ⟨directoryOf_plain hslash, hslash⟩

/-! ## §3. A directory that is found again. -/

/-- **When a merge finds the directory of a gallery again**, which stands next
to images of the given paths. -/
def FoundAgain (paths : List String) (directory : String) : Prop :=
  if directory = "" then HasPath paths ∧ (sharedStart paths).head? ≠ some '0'
  else ¬ ['/', '/'] <:+ directory.toList

section Again

variable {shared directory : List Char} {name : List Char}

/-- What follows a directory in a file of the gallery does not count. -/
theorem directoryOf_file (hname : '/' ∉ name) (hdirectory : directory ++ ['/'] <+: shared)
    (hfile : shared <+: directory ++ '/' :: name) : directoryOf shared = dropSlash directory := by
  obtain ⟨rest, rfl⟩ := hdirectory
  rw [List.append_assoc, List.prefix_append_right_inj, List.singleton_append,
    List.cons_prefix_cons] at hfile
  have hrest : '/' ∉ rest := fun hmem => hname (hfile.2.subset hmem)
  rw [List.append_assoc, List.singleton_append, directoryOf_append directory hrest]

/-- A directory of one part is found again, with a slash after it or without. -/
theorem directoryOf_part (hname : '/' ∉ name) (hplain : '/' ∉ directory)
    (hdirectory : directory <+: shared) (hfile : shared <+: directory ++ '/' :: name) :
    directoryOf shared = directory := by
  obtain ⟨rest, rfl⟩ := hdirectory
  rw [List.prefix_append_right_inj] at hfile
  cases rest with
  | nil => rw [List.append_nil, directoryOf_plain hplain]
  | cons c rest =>
    rw [List.cons_prefix_cons] at hfile
    obtain ⟨rfl, hrest⟩ := hfile
    rw [directoryOf_append directory fun hmem => hname (hrest.subset hmem), dropSlash_eq_self_iff]
    intro hlast
    exact hplain (List.mem_of_getLast? hlast)

end Again

/-- Two slashes at the end of a closed directory are one at the end of the
directory. -/
theorem two_slashes_suffix_iff {directory : List Char} :
    ['/', '/'] <:+ directory ++ ['/'] ↔ directory.getLast? = some '/' := by
  constructor
  · rintro ⟨front, hfront⟩
    have hboth : (front ++ ['/']) ++ ['/'] = directory ++ ['/'] := by
      rw [← hfront, List.append_assoc]
      rfl
    have hsame : front ++ ['/'] = directory := List.append_cancel_right hboth
    rw [← hsame, List.getLast?_concat]
  · intro hlast
    obtain ⟨front, rfl⟩ := List.getLast?_eq_some_iff.1 hlast
    exact ⟨front, by simp⟩

theorem zero_prefix_iff {text : List Char} : ['0'] <+: text ↔ text.head? = some '0' := by
  cases text with
  | nil => simp
  | cons c rest => simp [eq_comm]

/-- The start of a name is empty if it does not have the first letter. -/
theorem eq_nil_iff_of_prefix {text name : List Char} (h : text <+: name)
    (hname : name.head? = some '0') : text = [] ↔ ¬ ['0'] <+: text := by
  rw [zero_prefix_iff]
  cases text with
  | nil => simp
  | cons c rest =>
    obtain ⟨more, rfl⟩ := h
    simpa using hname

section FoundAgain

variable {paths stored files : List String}

/-- The files of a gallery whose directory is not empty. -/
theorem directoryOf_again (hne : directoryOf (sharedStart (paths ++ stored)) ≠ [])
    (hsome : files ≠ [])
    (hfiles : ∀ file ∈ files, ∃ name, '/' ∉ name ∧
      file.toList = directoryOf (sharedStart (paths ++ stored)) ++ '/' :: name) :
    directoryOf (sharedStart (paths ++ files)) = directoryOf (sharedStart (paths ++ stored)) ↔
      (directoryOf (sharedStart (paths ++ stored))).getLast? ≠ some '/' := by
  have hcases := directoryOf_cases hne
  have hpaths : HasPath paths → sharedStart (paths ++ stored) <+: sharedStart paths :=
    fun h => sharedStart_append_prefix h stored
  generalize sharedStart (paths ++ stored) = shared at hne hfiles hcases hpaths ⊢
  generalize directoryOf shared = directory at hne hfiles hcases ⊢
  have hfilled : ∀ file ∈ files, file ≠ "" := by
    rintro file hmem rfl
    obtain ⟨name, _, hsame⟩ := hfiles "" hmem
    simp at hsame
  -- The shared start lies between the directory and the first file.
  have hbetween : ∀ start, start <+: shared → start <+: directory ++ ['/'] →
      start <+: sharedStart (paths ++ files) := by
    intro start hshared hdirectory
    refine (prefix_sharedStart_append_iff hsome hfilled).2
      ⟨fun h => hshared.trans (hpaths h), fun file hmem => ?_⟩
    obtain ⟨name, _, hsame⟩ := hfiles file hmem
    rw [hsame, ← List.singleton_append, ← List.append_assoc]
    exact hdirectory.trans (List.prefix_append _ _)
  obtain ⟨first, hfirst⟩ := List.exists_mem_of_ne_nil _ hsome
  obtain ⟨name, hname, hsame⟩ := hfiles first hfirst
  have hstart : sharedStart (paths ++ files) <+: directory ++ '/' :: name :=
    hsame ▸ sharedStart_append_prefix_of_mem hfilled hfirst
  rcases hcases with hslash | ⟨rfl, hplain⟩
  · rw [directoryOf_file hname (hbetween _ hslash (List.prefix_refl _)) hstart,
      dropSlash_eq_self_iff]
  · rw [directoryOf_part hname hplain
      (hbetween _ (List.prefix_refl _) (List.prefix_append _ _)) hstart]
    exact ⟨fun _ hlast => hplain (List.mem_of_getLast? hlast), fun _ => rfl⟩

/-- The files of a gallery without a directory. -/
theorem directoryOf_names (hsome : files ≠ []) (hfiles : ∀ file ∈ files, NamesFile file.toList) :
    directoryOf (sharedStart (paths ++ files)) = [] ↔
      HasPath paths ∧ (sharedStart paths).head? ≠ some '0' := by
  have hfilled : ∀ file ∈ files, file ≠ "" := by
    rintro file hmem rfl
    cases (hfiles "" hmem).2
  obtain ⟨first, hfirst⟩ := List.exists_mem_of_ne_nil _ hsome
  have hstart : sharedStart (paths ++ files) <+: first.toList :=
    sharedStart_append_prefix_of_mem hfilled hfirst
  have hplain : '/' ∉ sharedStart (paths ++ files) :=
    fun hmem => (hfiles first hfirst).1 (hstart.subset hmem)
  -- Something is shared exactly if the first letter is.
  have hletter : ['0'] <+: sharedStart (paths ++ files) ↔
      (HasPath paths → (sharedStart paths).head? = some '0') := by
    rw [prefix_sharedStart_append_iff hsome hfilled, zero_prefix_iff]
    exact and_iff_left fun file hmem => zero_prefix_iff.2 (hfiles file hmem).2
  rw [directoryOf_plain hplain, eq_nil_iff_of_prefix hstart (hfiles first hfirst).2, hletter,
    Classical.not_imp]

/-- **The directory of a gallery is found again** in the cases that `FoundAgain`
tells. -/
theorem sharedDirectory_again {names : List String} (hnames : names ≠ [])
    (hfit : ∀ name ∈ names, NamesFile name.toList) :
    sharedDirectory (paths ++ names.map (sharedDirectory (paths ++ stored) ++ ·))
      = sharedDirectory (paths ++ stored) ↔
    FoundAgain paths (sharedDirectory (paths ++ stored)) := by
  have hsome : names.map (sharedDirectory (paths ++ stored) ++ ·) ≠ [] :=
    fun hnil => hnames (List.map_eq_nil_iff.1 hnil)
  have hlist := toList_sharedDirectory (paths ++ stored)
  have hfile : ∀ file ∈ names.map (sharedDirectory (paths ++ stored) ++ ·), ∃ name ∈ names,
      file.toList = (sharedDirectory (paths ++ stored)).toList ++ name.toList := by
    intro file hmem
    obtain ⟨name, hname, rfl⟩ := List.mem_map.1 hmem
    exact ⟨name, hname, String.toList_append⟩
  rw [← String.toList_inj, toList_sharedDirectory, hlist, closed_inj]
  unfold FoundAgain
  by_cases hempty : directoryOf (sharedStart (paths ++ stored)) = []
  · have hnone : sharedDirectory (paths ++ stored) = "" := by
      rw [← String.toList_inj, hlist, hempty]
      rfl
    rw [hempty, if_pos hnone]
    refine directoryOf_names hsome fun file hmem => ?_
    obtain ⟨name, hname, hsame⟩ := hfile file hmem
    rw [hsame, hnone]
    exact hfit name hname
  · rw [closed_of_ne_nil hempty] at hlist
    have hclosed : sharedDirectory (paths ++ stored) ≠ "" := by
      intro hnone
      rw [hnone] at hlist
      simp at hlist
    rw [if_neg hclosed, hlist, two_slashes_suffix_iff]
    refine directoryOf_again hempty hsome fun file hmem => ?_
    obtain ⟨name, hname, hsame⟩ := hfile file hmem
    refine ⟨name.toList, (hfit name hname).1, ?_⟩
    rw [hsame, hlist, List.append_assoc]
    rfl

end FoundAgain

end FilmCatalog.Artwork
