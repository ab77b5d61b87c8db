/-
  FilmCatalog.Proofs.Artwork.FileNames
  ────────────────────────────────────
  **NAMES OF GALLERY FILES.**

  A merge names the files of a gallery by their position and keeps their
  extension.  Such a name has one dot at most and no slash, so the next merge
  finds the same extension in it (`keptExtension_named`).
-/
import FilmCatalog.Merge.Artwork
import FilmCatalog.Proofs.Text

namespace FilmCatalog

/-! ## §1. Numbers. -/

theorem Text.isDigit_of_mem_twoDigits {n : Nat} {c : Char} (h : c ∈ (twoDigits n).toList) :
    c.isDigit = true := by
  have hrepr : ∀ c ∈ (Nat.repr n).toList, c.isDigit = true := by
    intro c hc
    rw [Nat.toList_repr] at hc
    exact Nat.isDigit_of_mem_toDigits (by decide) (by decide) hc
  unfold twoDigits at h
  split at h
  · rw [String.toList_append] at h
    rcases List.mem_append.1 h with hzero | hc
    · rw [List.mem_singleton.1 hzero]
      decide
    · exact hrepr c hc
  · exact hrepr c h

/-- Digits tell their number with a zero in front too. -/
theorem Text.twoDigits_injective {m n : Nat} (h : twoDigits m = twoDigits n) : m = n := by
  have hvalue : ∀ n, Nat.ofDigitChars 10 (twoDigits n).toList 0 = n := by
    intro n
    unfold twoDigits
    split
    · -- A zero in front adds nothing.
      rw [String.toList_append]
      exact ofDigitChars_repr n
    · exact ofDigitChars_repr n
  rw [← hvalue m, h, hvalue]

/-! ## §2. Names in paths. -/

namespace Path

/-- The name of a file is what stands after its directory. -/
theorem fileName?_append {directory name : List Char}
    (hdirectory : directory = [] ∨ directory.getLast? = some '/') (hname : '/' ∉ name)
    (hcounts : counts name = true) (hdots : name ≠ ['.', '.']) :
    fileName? (directory ++ name) = some name := by
  have hparts : ∃ parts, Text.splitAll '/' (directory ++ name) = parts ++ [name] := by
    simp only [Text.splitAll_eq]
    rcases hdirectory with rfl | hslash
    · exact ⟨[], List.splitOn_eq_singleton hname⟩
    · obtain ⟨front, rfl⟩ := List.getLast?_eq_some_iff.1 hslash
      refine ⟨front.splitOn '/', ?_⟩
      rw [List.append_assoc, List.singleton_append, List.splitOn_append_cons_self,
        List.splitOn_eq_singleton hname]
  obtain ⟨parts, hparts⟩ := hparts
  unfold fileName?
  rw [hparts, List.filter_append, List.filter_cons_of_pos hcounts, List.filter_nil,
    List.getLast?_concat]
  simp only [if_neg hdots]

/-- A name with an extension has something before its last dot. -/
theorem exists_of_splitName {name extension : List Char}
    (h : (splitName name).2 = some extension) :
    ∃ stem, stem ≠ [] ∧ name = stem ++ '.' :: extension ∧ '.' ∉ extension := by
  have hdot : '.' ∈ name := by
    refine Decidable.byContradiction fun hnone => ?_
    unfold splitName at h
    rw [Text.splitLast_eq_none hnone] at h
    split at h <;> cases h
  obtain ⟨before, after, rfl, hafter⟩ := Text.exists_last hdot
  unfold splitName at h
  rw [Text.splitLast_append before hafter] at h
  split at h
  · cases h
  · cases before with
    | nil => cases h
    | cons c rest =>
      cases h
      exact ⟨c :: rest, List.cons_ne_nil c rest, rfl, hafter⟩

/-- An extension has neither a dot nor a slash. -/
theorem plain_of_extension? {path extension : String} (h : extension? path = some extension) :
    '.' ∉ extension.toList ∧ '/' ∉ extension.toList := by
  obtain ⟨text, htext, rfl⟩ := Option.map_eq_some_iff.1 h
  obtain ⟨name, hname, hsplit⟩ := Option.bind_eq_some_iff.1 htext
  rw [String.toList_ofList]
  have hslash : '/' ∉ name := by
    unfold fileName? at hname
    split at hname
    · rename_i last hlast
      split at hname
      · cases hname
      · obtain rfl := Option.some.inj hname
        exact Text.not_mem_of_mem_splitAll (List.mem_filter.1 (List.mem_of_getLast? hlast)).1
    · cases hname
  obtain ⟨stem, _, rfl, hdot⟩ := exists_of_splitName hsplit
  exact ⟨hdot, fun hmem => hslash (List.mem_append_right _ (List.mem_cons_of_mem _ hmem))⟩

end Path

namespace Artwork

/-! ## §3. Names of gallery files. -/

/-- Texts that can name a file of a gallery: they start with the digit that all
these names start with, and stay within their directory. -/
def NamesFile (name : List Char) : Prop := '/' ∉ name ∧ name.head? = some '0'

theorem NamesFile.ne {name other : List Char} (h : NamesFile name) (hother : other.head? ≠ some '0') :
    name ≠ other := by
  rintro rfl
  exact hother h.2

/-- A name of a gallery file, before its extension. -/
theorem namesFile_galleryName (index : Nat) :
    NamesFile (galleryName index).toList ∧ '.' ∉ (galleryName index).toList := by
  -- A mark that is no digit could only stand before the number.
  have hplain : ∀ mark : Char, mark.isDigit = false → mark ∉ "02-gallery-".toList →
      mark ∉ (galleryName index).toList := by
    intro mark hmark hstart hmem
    unfold galleryName at hmem
    rw [String.toList_append] at hmem
    rcases List.mem_append.1 hmem with hmem | hmem
    · exact hstart hmem
    · rw [Text.isDigit_of_mem_twoDigits hmem] at hmark
      cases hmark
  refine ⟨⟨hplain '/' (by decide) (by decide), ?_⟩, hplain '.' (by decide) (by decide)⟩
  unfold galleryName
  rw [String.toList_append]
  rfl

/-- What a kept extension is: nothing, or a dot and a text without dots and
slashes. -/
def IsExtension (text : String) : Prop :=
  text = "" ∨ ∃ letters, text.toList = '.' :: letters ∧ '.' ∉ letters ∧ '/' ∉ letters

theorem isExtension_keptExtension (path : String) : IsExtension (keptExtension path) := by
  unfold keptExtension
  split
  · exact .inr ⟨['j', 'p', 'g'], rfl, by decide, by decide⟩
  · cases hextension : Path.extension? path with
    | none => exact .inl rfl
    | some extension =>
      refine .inr ⟨extension.toList, ?_, Path.plain_of_extension? hextension⟩
      rw [String.toList_append]
      rfl

theorem namesFile_append {name extension : String} (hname : NamesFile name.toList)
    (hextension : IsExtension extension) : NamesFile (name ++ extension).toList := by
  obtain ⟨hslash, hhead⟩ := hname
  rw [String.toList_append]
  refine ⟨?_, ?_⟩
  · intro hmem
    rcases List.mem_append.1 hmem with hmem | hmem
    · exact hslash hmem
    · rcases hextension with rfl | ⟨letters, hletters, _, hplain⟩
      · cases hmem
      · rw [hletters] at hmem
        rcases List.mem_cons.1 hmem with hdot | hmem
        · cases hdot
        · exact hplain hmem
  · rw [List.head?_append, hhead]
    rfl

/-- What stands before the first dot of a named file. -/
theorem takeWhile_named {name extension : String} (hname : '.' ∉ name.toList)
    (h : IsExtension extension) :
    (name ++ extension).toList.takeWhile (· ≠ '.') = name.toList := by
  have hplain : ∀ c ∈ name.toList, decide (c ≠ '.') = true := by
    intro c hc
    exact decide_eq_true fun hdot => hname (hdot ▸ hc)
  rw [String.toList_append, List.takeWhile_append_of_pos hplain]
  rcases h with rfl | ⟨letters, hletters, _⟩
  · simp
  · rw [hletters, List.takeWhile_cons_of_neg (by simp), List.append_nil]

/-- A name without dots can be told from the name of a file. -/
theorem name_of_file {name other extension last : String} (hname : '.' ∉ name.toList)
    (hother : '.' ∉ other.toList) (hextension : IsExtension extension) (hlast : IsExtension last)
    (h : (name ++ extension).toList = (other ++ last).toList) : name = other := by
  rw [← String.toList_inj, ← takeWhile_named hname hextension, h, takeWhile_named hother hlast]

theorem galleryName_injective {i j : Nat} (h : galleryName i = galleryName j) : i = j := by
  unfold galleryName at h
  rw [String.append_right_inj] at h
  exact Text.twoDigits_injective h

/-- **Files at different positions have different paths**, whatever their
extensions. -/
theorem index_of_path {directory extension other : String} {i j : Nat}
    (hextension : IsExtension extension) (hother : IsExtension other)
    (h : directory ++ galleryName i ++ extension = directory ++ galleryName j ++ other) : i = j := by
  rw [String.append_assoc, String.append_assoc, String.append_right_inj] at h
  exact galleryName_injective (name_of_file (namesFile_galleryName i).2 (namesFile_galleryName j).2
    hextension hother (congrArg String.toList h))

/-- **A file that was named by a merge keeps its extension in the next.** -/
theorem keptExtension_named {directory extension : String} (index : Nat)
    (hdirectory : directory.toList = [] ∨ directory.toList.getLast? = some '/')
    (hextension : IsExtension extension) :
    keptExtension (directory ++ galleryName index ++ extension) = extension := by
  obtain ⟨hname, hdot⟩ := namesFile_galleryName index
  have hfile := namesFile_append hname hextension
  have hfull : (directory ++ galleryName index ++ extension).toList
      = directory.toList ++ (galleryName index ++ extension).toList := by
    rw [String.append_assoc, String.toList_append]
  have hne : directory ++ galleryName index ++ extension ≠ "" := by
    intro hempty
    rw [hempty] at hfull
    exact hfile.ne (by decide) (List.append_eq_nil_iff.1 hfull.symm).2
  have hdots : (galleryName index ++ extension).toList ≠ ['.', '.'] := hfile.ne (by decide)
  have hcounts : Path.counts (galleryName index ++ extension).toList = true := by
    unfold Path.counts
    rw [Bool.and_eq_true, decide_eq_true_eq, decide_eq_true_eq]
    exact ⟨hfile.ne (by decide), hfile.ne (by decide)⟩
  unfold keptExtension Path.extension?
  rw [if_neg hne, hfull, Path.fileName?_append hdirectory hfile.1 hcounts hdots]
  unfold Path.splitName
  simp only [Option.bind_some, if_neg hdots]
  rw [String.toList_append]
  rcases hextension with rfl | ⟨letters, hletters, hplain, _⟩
  · rw [Text.splitLast_eq_none (by simpa using hdot)]
    rfl
  · -- The last dot is the one of the extension.
    rw [hletters, Text.splitLast_append _ hplain]
    cases hstem : (galleryName index).toList with
    | nil => exact absurd hstem (hname.ne (by decide))
    | cons c stem =>
      show "." ++ String.ofList letters = extension
      rw [← String.toList_inj, String.toList_append, hletters]
      exact congrArg ('.' :: ·) String.toList_ofList

end Artwork

end FilmCatalog
