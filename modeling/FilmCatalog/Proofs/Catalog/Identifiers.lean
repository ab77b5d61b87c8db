/-
  FilmCatalog.Proofs.Catalog.Identifiers
  ──────────────────────────────────────
  **FROM A FILE TO ITS IDENTIFIER AND BACK.**

  The identifier of a record file is its path without the extension, and the
  record with an identifier is looked for under that path with the extension.
  This leads back to the file, unless its name is `..json`:

      file            identifier      record is looked for in
      d/a.b.json      d/a.b           d/a.b.json
      d/...json       d/..            d/...json
      d/..json        d/..            d/...json

  Without its letters the extension of `..json` leaves two dots, which are no
  name, so the last dot is not taken off.

    • `exists_stem` — what the identifier of a file is made of,
    • `idOf?_eq_iff` — which files share an identifier,
    • `leadsBack_iff` — which identifiers lead back.
-/
import Mathlib.Data.List.Nodup
import Mathlib.Data.List.Pairwise
import FilmCatalog.Catalog.Listing
import FilmCatalog.Proofs.Artwork.FileNames
import FilmCatalog.Proofs.Files.WellFormed

namespace FilmCatalog

/-! ## §1. Names below a directory. -/

namespace Path

theorem lead_slash (front : String) : lead (front ++ "/") = front ++ "/" := by
  unfold lead
  rw [if_pos]
  rw [String.toList_append]
  show (_ || (front.toList ++ ['/']).getLast? == some '/') = true
  rw [List.getLast?_concat]
  exact Bool.or_true _

/-- A path made of names is a name below a directory. -/
theorem exists_lead {file : String} (h : ∀ name ∈ Text.pieces '/' file, FileTree.IsName name) :
    ∃ directory name, FileTree.IsName name ∧ file = lead directory ++ name := by
  by_cases hslash : '/' ∈ file.toList
  · obtain ⟨before, after, hfile, hafter⟩ := Text.exists_last hslash
    have htext : file = String.ofList before ++ "/" ++ String.ofList after := by
      rw [← String.toList_inj, Text.toList_slash, String.toList_ofList, String.toList_ofList, hfile]
    refine ⟨String.ofList before ++ "/", String.ofList after, h _ ?_, ?_⟩
    · rw [htext, Text.pieces_slash]
      refine List.mem_append_right _ ?_
      rw [Text.pieces_of_not_mem (by rwa [String.toList_ofList])]
      exact List.mem_cons_self
    · rw [lead_slash, ← htext]
  · refine ⟨"", file, h file ?_, String.empty_append.symm⟩
    rw [Text.pieces_of_not_mem hslash]
    exact List.mem_cons_self

/-- A name below a directory is cut off at the last slash, if there is one. -/
theorem cutLast_lead (directory : String) {name : String} (h : '/' ∉ name.toList) :
    lead directory = "" ∧ Text.cutLast '/' (lead directory ++ name) = none ∨
      ∃ front, lead directory = front ++ "/" ∧
        Text.cutLast '/' (lead directory ++ name) = some (front, name) := by
  rcases lead_cases directory with ⟨hlead, _⟩ | ⟨front, hlead, _⟩
  · refine .inl ⟨hlead, ?_⟩
    rw [hlead, String.empty_append, Text.cutLast, Text.splitLast_eq_none h, Option.map_none]
  · refine .inr ⟨front, hlead, ?_⟩
    rw [hlead, Text.cutLast_slash front h]

/-- The name of a path can be told from what stands before it. -/
theorem lead_append_inj {directory other name last : String} (hname : '/' ∉ name.toList)
    (hlast : '/' ∉ last.toList) (h : lead directory ++ name = lead other ++ last) :
    lead directory = lead other ∧ name = last := by
  have hcut := congrArg (Text.cutLast '/') h
  rcases cutLast_lead directory hname with ⟨hlead, hnone⟩ | ⟨front, hlead, hsome⟩
  · rcases cutLast_lead other hlast with ⟨hother, _⟩ | ⟨_, _, hsome⟩
    · rw [hlead, hother] at h ⊢
      rw [String.empty_append, String.empty_append] at h
      exact ⟨rfl, h⟩
    · rw [hnone, hsome] at hcut
      cases hcut
  · rcases cutLast_lead other hlast with ⟨_, hnone⟩ | ⟨_, hother, hsome'⟩
    · rw [hsome, hnone] at hcut
      cases hcut
    · rw [hsome, hsome'] at hcut
      cases hcut
      exact ⟨hlead.trans hother.symm, rfl⟩

/-- The directory of a file has no part in its extension. -/
theorem extension?_lead (directory : String) {name : String} (h : FileTree.IsName name) :
    extension? (lead directory ++ name) = (splitName name.toList).2.map String.ofList := by
  have hclosed : (lead directory).toList = [] ∨ (lead directory).toList.getLast? = some '/' := by
    rcases lead_cases directory with ⟨hlead, _⟩ | ⟨front, hlead, _⟩
    · rw [hlead]
      exact .inl rfl
    · rw [hlead, String.toList_append]
      exact .inr List.getLast?_concat
  have hne : ∀ {other : String}, name ≠ other → name.toList ≠ other.toList :=
    fun hother heq => hother (String.toList_inj.1 heq)
  have hcounts : counts name.toList = true := by
    unfold counts
    rw [Bool.and_eq_true]
    exact ⟨decide_eq_true (hne h.filled), decide_eq_true (hne h.undotted.1)⟩
  unfold extension?
  rw [String.toList_append, fileName?_append hclosed h.plain hcounts (hne h.undotted.2)]
  rfl

/-- The extension is cut off the name, and the directory stays. -/
theorem dropExtension_lead (directory : String) {name : String} (h : '/' ∉ name.toList) :
    dropExtension (lead directory ++ name)
      = lead directory ++ String.ofList (bareName name.toList) := by
  unfold dropExtension
  rcases cutLast_lead directory h with ⟨hlead, hcut⟩ | ⟨front, hlead, hcut⟩
  · rw [hcut, hlead, String.empty_append, String.empty_append]
  · rw [hcut, hlead]

/-- Whether a relative name below a directory makes an absolute path depends on
the directory alone. -/
theorem isAbsolute_lead {directory name last : String} (hname : isAbsolute name = false)
    (hlast : isAbsolute last = false) :
    isAbsolute (lead directory ++ name) = isAbsolute (lead directory ++ last) := by
  by_cases hlead : lead directory = ""
  · rw [hlead, String.empty_append, String.empty_append, hname, hlast]
  · rw [isAbsolute_append hlead, isAbsolute_append hlead]

theorem isAbsolute_of_not_mem {path : String} (h : '/' ∉ path.toList) :
    isAbsolute path = false := by
  refine Bool.eq_false_iff.2 fun habsolute => h ?_
  exact List.mem_of_head? (beq_iff_eq.1 habsolute)

/-- The parts of a name with an extension. -/
theorem splitName_append {stem extension : List Char} (hstem : stem ≠ [])
    (hextension : extension ≠ []) (hdot : '.' ∉ extension) :
    splitName (stem ++ '.' :: extension) = (stem, some extension) := by
  have hdots : stem ++ '.' :: extension ≠ ['.', '.'] := by
    intro heq
    have hlength := congrArg List.length heq
    have := List.length_pos_iff.2 hstem
    have := List.length_pos_iff.2 hextension
    simp only [List.length_append, List.length_cons, List.length_nil] at hlength
    omega
  unfold splitName
  rw [if_neg hdots, Text.splitLast_append stem hdot]
  cases stem with
  | nil => exact absurd rfl hstem
  | cons c rest => rfl

end Path

/-! ## §2. Record files. -/

namespace Record

/-- **A record file** below a directory, by its path from there. -/
def IsFile (tree : FileTree) (root file : String) : Prop :=
  ∃ location, tree.directory? root = some location ∧ file ∈ tree.filesBelow location ∧
    Path.extension? file = some fileExtension

/-- What a name without its extension is in an identifier. -/
def bareStem (stem : String) : String := if stem = "." then ".." else stem

/-- Only the name of a single dot is changed. -/
theorem bareStem_eq_self_iff {stem : String} : bareStem stem = stem ↔ stem ≠ "." := by
  unfold bareStem
  split
  · rename_i hdot
    subst hdot
    decide
  · rename_i hdot
    exact iff_of_true rfl hdot

/-- Only the two names of dots are taken for one another. -/
theorem bareStem_eq_iff {stem other : String} :
    bareStem stem = bareStem other ↔
      stem = other ∨ stem = "." ∧ other = ".." ∨ stem = ".." ∧ other = "." := by
  unfold bareStem
  by_cases hstem : stem = "."
  · subst hstem
    by_cases hother : other = "."
    · subst hother
      decide
    · simp [hother, Ne.symm hother, eq_comm]
  · by_cases hother : other = "."
    · subst hother
      simp [hstem]
    · simp [hstem, hother]

theorem not_mem_bareStem {stem : String} (h : '/' ∉ stem.toList) :
    '/' ∉ (bareStem stem).toList := by
  unfold bareStem
  split
  · decide
  · exact h

theorem not_mem_append_json {stem : String} (h : '/' ∉ stem.toList) :
    '/' ∉ (stem ++ ".json").toList := by
  rw [String.toList_append, List.mem_append, not_or]
  exact ⟨h, by decide⟩

/-- Record files are joined to their directories with a slash at most. -/
theorem join_json (directory : String) {stem : String} (h : '/' ∉ stem.toList) :
    Path.join directory (stem ++ ".json") = Path.lead directory ++ (stem ++ ".json") :=
  Path.join_eq directory (Path.isAbsolute_of_not_mem (not_mem_append_json h))

theorem toList_append_json (stem : String) :
    (stem ++ ".json").toList = stem.toList ++ '.' :: "json".toList := String.toList_append

/-- The name of a record file without its extension. -/
theorem bareName_json {stem : String} (h : stem ≠ "") :
    String.ofList (Path.bareName (stem ++ ".json").toList) = bareStem stem := by
  have hchars : stem.toList ≠ [] := fun hnil => h (String.toList_eq_nil_iff.1 hnil)
  unfold Path.bareName bareStem
  rw [toList_append_json, Path.splitName_append hchars (by decide) (by decide)]
  dsimp only
  by_cases hdot : stem = "."
  · subst hdot
    rfl
  · have hne : stem.toList ≠ ['.'] := fun heq => hdot (String.toList_inj.1 heq)
    rw [if_neg hne, if_neg hdot, String.ofList_toList]

/-- The name of a record file is its stem with the extension. -/
theorem exists_append_json {directory name : String} (hname : FileTree.IsName name)
    (h : Path.extension? (Path.lead directory ++ name) = some fileExtension) :
    ∃ stem, stem ≠ "" ∧ name = stem ++ ".json" := by
  rw [Path.extension?_lead directory hname] at h
  obtain ⟨extension, hsplit, hjson⟩ := Option.map_eq_some_iff.1 h
  obtain ⟨stem, hstem, hchars, _⟩ := Path.exists_of_splitName hsplit
  have hextension : extension = "json".toList := by
    rw [← String.ofList_inj, hjson, String.ofList_toList]
    rfl
  have htext : (String.ofList stem).toList = stem := String.toList_ofList
  refine ⟨String.ofList stem, fun hempty => hstem ?_, ?_⟩
  · rw [← htext, hempty]
    rfl
  · rw [← String.toList_inj, toList_append_json, htext, hchars, hextension]

/-- **What the identifier of a record file is made of.** -/
theorem exists_stem {tree : FileTree} (h : tree.WellFormed) {root file : String}
    (hfile : IsFile tree root file) :
    ∃ directory stem, '/' ∉ stem.toList ∧ file = Path.join directory (stem ++ ".json") ∧
      idOf? [fileExtension] file = some (Path.lead directory ++ bareStem stem) := by
  obtain ⟨location, hroot, hmem, hextension⟩ := hfile
  have hlocation := (FileTree.directory?_eq_some_iff.1 hroot).2
  obtain ⟨directory, name, hname, rfl⟩ := Path.exists_lead (h.names_of_file hlocation hmem).1
  obtain ⟨stem, hstem, rfl⟩ := exists_append_json hname hextension
  have hplain : '/' ∉ stem.toList := by
    intro hslash
    refine hname.plain ?_
    rw [String.toList_append]
    exact List.mem_append_left _ hslash
  refine ⟨directory, stem, hplain, (join_json directory hplain).symm, ?_⟩
  unfold idOf?
  rw [hextension, Path.dropExtension_lead directory hname.plain, bareName_json hstem]
  rfl

/-! ## §3. Files that share an identifier. -/

/-- The file has the one name that does not come back from its identifier. -/
def Dotted (file : String) : Prop := ∃ directory, file = Path.join directory "..json"

/-- Two files of a directory whose names leave the same two dots. -/
def Twins (file other : String) : Prop :=
  ∃ directory, file = Path.join directory "..json" ∧ other = Path.join directory "...json"

/-- Two record files of one name have one stem. -/
theorem append_json_inj {stem other : String} (h : stem ++ ".json" = other ++ ".json") :
    stem = other := by
  rw [← String.toList_inj, String.toList_append, String.toList_append] at h
  exact String.toList_inj.1 (List.append_cancel_right h)

/-- Two record files are the same exactly if directory and stem are. -/
theorem join_json_eq_iff {directory other stem last : String} (hstem : '/' ∉ stem.toList)
    (hlast : '/' ∉ last.toList) :
    Path.join directory (stem ++ ".json") = Path.join other (last ++ ".json") ↔
      Path.lead directory = Path.lead other ∧ stem = last := by
  rw [join_json directory hstem, join_json other hlast]
  constructor
  · intro h
    obtain ⟨hlead, hname⟩ :=
      Path.lead_append_inj (not_mem_append_json hstem) (not_mem_append_json hlast) h
    exact ⟨hlead, append_json_inj hname⟩
  · rintro ⟨hlead, rfl⟩
    rw [hlead]

/-- A dotted record file is one whose stem is a dot. -/
theorem dotted_join_iff {directory stem : String} (h : '/' ∉ stem.toList) :
    Dotted (Path.join directory (stem ++ ".json")) ↔ stem = "." := by
  have hdot : '/' ∉ ".".toList := by decide
  constructor
  · rintro ⟨other, heq⟩
    exact ((join_json_eq_iff h hdot).1 heq).2
  · rintro rfl
    exact ⟨directory, rfl⟩

/-- Twins are the dotted names of one directory. -/
theorem twins_join_iff {directory other stem last : String} (hstem : '/' ∉ stem.toList)
    (hlast : '/' ∉ last.toList) :
    Twins (Path.join directory (stem ++ ".json")) (Path.join other (last ++ ".json")) ↔
      Path.lead directory = Path.lead other ∧ stem = "." ∧ last = ".." := by
  have hdot : '/' ∉ ".".toList := by decide
  have hdots : '/' ∉ "..".toList := by decide
  constructor
  · rintro ⟨common, hfile, hother⟩
    obtain ⟨hlead, hone⟩ := (join_json_eq_iff hstem hdot).1 hfile
    obtain ⟨hlead', htwo⟩ := (join_json_eq_iff hlast hdots).1 hother
    exact ⟨hlead.trans hlead'.symm, hone, htwo⟩
  · rintro ⟨hlead, rfl, rfl⟩
    exact ⟨directory, rfl, (join_json_eq_iff hdots hdots).2 ⟨hlead.symm, rfl⟩⟩

/-- Twins are two files. -/
theorem Twins.ne {file other : String} (h : Twins file other) : file ≠ other := by
  obtain ⟨directory, rfl, rfl⟩ := h
  intro heq
  have hdot : '/' ∉ ".".toList := by decide
  have hdots : '/' ∉ "..".toList := by decide
  exact absurd ((join_json_eq_iff hdot hdots).1 heq).2 (by decide)

section Scan

variable {tree : FileTree} (h : tree.WellFormed) {root : String}

include h

/-- **Two files share an identifier** if they are twins. -/
theorem idOf?_eq_iff {file other : String} (hfile : IsFile tree root file)
    (hother : IsFile tree root other) :
    idOf? [fileExtension] file = idOf? [fileExtension] other ↔
      file = other ∨ Twins file other ∨ Twins other file := by
  obtain ⟨directory, stem, hstem, rfl, hid⟩ := exists_stem h hfile
  obtain ⟨directory', stem', hstem', rfl, hid'⟩ := exists_stem h hother
  rw [hid, hid', join_json_eq_iff hstem hstem', twins_join_iff hstem hstem',
    twins_join_iff hstem' hstem, eq_comm (a := Path.lead directory'), ← and_or_left, ← and_or_left,
    and_comm (a := stem' = "."), ← bareStem_eq_iff, Option.some.injEq]
  constructor
  · exact Path.lead_append_inj (not_mem_bareStem hstem) (not_mem_bareStem hstem')
  · rintro ⟨hlead, hbare⟩
    rw [hlead, hbare]

/-! ## §4. Identifiers that lead back. -/

omit h in

/-- The identifier made from a stem leads to the file of the stem in the same
directory. -/
theorem path_bareStem (root directory : String) {stem : String} (h : '/' ∉ stem.toList) :
    path root (Path.lead directory ++ bareStem stem)
      = Path.join root (Path.join directory (bareStem stem ++ ".json")) := by
  unfold path
  rw [join_json directory (not_mem_bareStem h), String.append_assoc, String.append_assoc]
  rfl

/-- **An identifier leads back to a file**: the record is looked for under the
path of the file, and the path leads there, unless no path like that can be
followed at all. -/
structure LeadsBack (tree : FileTree) (root file id : String) : Prop where
  path : Record.path root id = Path.join root file
  found : ∀ location, tree.directory? root = some location →
    FileTree.flaw? (Record.path root id) = none →
    tree.locate (Record.path root id) = .ok (FileTree.child location file)

/-- **An identifier leads back to its file** unless the file is a dotted one. -/
theorem leadsBack_iff {file id : String} (hfile : IsFile tree root file)
    (hid : idOf? [fileExtension] file = some id) :
    LeadsBack tree root file id ↔ ¬ Dotted file := by
  obtain ⟨directory, stem, hstem, hjoin, hsome⟩ := exists_stem h hfile
  obtain ⟨location, hroot, hmem, _⟩ := hfile
  have hlocation := (FileTree.directory?_eq_some_iff.1 hroot).2
  have hrelative := h.isAbsolute_file hlocation hmem
  rw [hid] at hsome
  cases hsome
  have hpath := path_bareStem root directory hstem
  rw [hjoin, dotted_join_iff hstem, ← hjoin]
  constructor
  · rintro ⟨hback, _⟩ hdot
    -- The path of the record is the one of another file of the directory.
    have hbare : Path.isAbsolute (Path.join directory (bareStem stem ++ ".json")) = false := by
      rw [← hrelative, hjoin, join_json directory hstem,
        join_json directory (not_mem_bareStem hstem)]
      exact Path.isAbsolute_lead
        (Path.isAbsolute_of_not_mem (not_mem_append_json (not_mem_bareStem hstem)))
        (Path.isAbsolute_of_not_mem (not_mem_append_json hstem))
    rw [hpath] at hback
    have hsame := Path.join_inj hbare hrelative hback
    rw [hjoin] at hsame
    exact bareStem_eq_self_iff.1 ((join_json_eq_iff (not_mem_bareStem hstem) hstem).1 hsame).2 hdot
  · intro hdot
    rw [bareStem_eq_self_iff.2 hdot, ← hjoin] at hpath
    refine ⟨?_, fun other hother hflaw => ?_⟩
    · rw [bareStem_eq_self_iff.2 hdot, hpath]
    · rw [bareStem_eq_self_iff.2 hdot, hpath] at hflaw ⊢
      rw [hroot] at hother
      cases hother
      exact h.locate_join hroot hmem hflaw

end Scan

/-! ## §5. The listing of identifiers. -/

/-- The record files below a root, as the scan sees them. -/
theorem isFile_iff {tree : FileTree} {root file location : String}
    (hroot : tree.directory? root = some location) :
    IsFile tree root file ↔
      file ∈ tree.filesBelow location ∧ ∃ id, idOf? [fileExtension] file = some id := by
  have hid : (∃ id, idOf? [fileExtension] file = some id) ↔
      Path.extension? file = some fileExtension := by
    unfold idOf?
    cases Path.extension? file with
    | none => simp
    | some extension => simp
  rw [hid]
  constructor
  · rintro ⟨other, hother, hmem, hextension⟩
    rw [hroot] at hother
    cases hother
    exact ⟨hmem, hextension⟩
  · rintro ⟨hmem, hextension⟩
    exact ⟨location, hroot, hmem, hextension⟩

/-- There are no record files below what is no directory. -/
theorem not_isFile {tree : FileTree} {root file : String} (hroot : tree.directory? root = none) :
    ¬ IsFile tree root file := by
  rintro ⟨location, hsome, _⟩
  rw [hroot] at hsome
  cases hsome

/-- The identifiers that are listed are those of the files. -/
theorem mem_scanIds_iff {tree : FileTree} {root id : String} :
    id ∈ scanIds tree root [fileExtension] ↔
      ∃ file, IsFile tree root file ∧ idOf? [fileExtension] file = some id := by
  unfold scanIds
  cases hroot : tree.directory? root with
  | none =>
    refine iff_of_false List.not_mem_nil ?_
    rintro ⟨file, hfile, _⟩
    exact not_isFile hroot hfile
  | some location =>
    dsimp only
    rw [(List.mergeSort_perm _ _).mem_iff, List.mem_filterMap]
    simp only [isFile_iff hroot]
    constructor
    · rintro ⟨file, hmem, hid⟩
      exact ⟨file, ⟨hmem, id, hid⟩, hid⟩
    · rintro ⟨file, ⟨hmem, _⟩, hid⟩
      exact ⟨file, hmem, hid⟩

/-- **No identifier is listed twice** if no two files share one. -/
theorem nodup_scanIds_iff (tree : FileTree) (root : String) :
    (scanIds tree root [fileExtension]).Nodup ↔
      ∀ file other, IsFile tree root file → IsFile tree root other →
        idOf? [fileExtension] file = idOf? [fileExtension] other → file = other := by
  unfold scanIds
  cases hroot : tree.directory? root with
  | none => exact iff_of_true List.nodup_nil fun file _ hfile => absurd hfile (not_isFile hroot)
  | some location =>
    dsimp only
    rw [(List.mergeSort_perm _ _).nodup_iff]
    simp only [isFile_iff hroot]
    constructor
    · rintro hnodup file other ⟨hfile, id, hid⟩ ⟨hother, _⟩ hsame
      refine Decidable.byContradiction fun hne => ?_
      -- Two places of the listing would hold the same identifier.
      have hsymm : Std.Symm fun first second : String =>
          ∀ id, idOf? [fileExtension] first = some id →
            ∀ last, idOf? [fileExtension] second = some last → id ≠ last :=
        ⟨fun _ _ hapart last hlast id hid => (hapart id hid last hlast).symm⟩
      have hapart := (List.pairwise_filterMap.1 hnodup).forall hfile hother hne
      exact hapart id hid id (hsame ▸ hid) rfl
    · intro hinj
      refine List.pairwise_filterMap.2 ((tree.nodup_filesBelow location).pairwise_of_forall_ne ?_)
      intro file hfile other hother hne id hid last hlast heq
      subst heq
      exact hne (hinj file other ⟨hfile, id, hid⟩ ⟨hother, id, hlast⟩ (hid.trans hlast.symm))

/-- **Which scanned identifiers lead back to their files.**  An identifier is
listed twice only for the twins `..json` and `...json` of a directory, for no
other two files share one.  The identifier of each file is listed, and it leads
back to the file exactly if the name of the file is not `..json`. -/
theorem scanned_ids_lead_back (tree : FileTree) (h : tree.WellFormed) (root : String) :
    ((scanIds tree root [fileExtension]).Nodup ↔
      ∀ file other, IsFile tree root file → IsFile tree root other → ¬ Twins file other) ∧
    (∀ file other, IsFile tree root file → IsFile tree root other →
      (idOf? [fileExtension] file = idOf? [fileExtension] other ↔
        file = other ∨ Twins file other ∨ Twins other file)) ∧
    ∀ file, IsFile tree root file → ∃ id ∈ scanIds tree root [fileExtension],
      idOf? [fileExtension] file = some id ∧ (LeadsBack tree root file id ↔ ¬ Dotted file) := by
  refine ⟨?_, fun file other hfile hother => idOf?_eq_iff h hfile hother, fun file hfile => ?_⟩
  · rw [nodup_scanIds_iff]
    constructor
    · intro hinj file other hfile hother htwins
      have hsame := (idOf?_eq_iff h hfile hother).2 (.inr (.inl htwins))
      exact htwins.ne (hinj file other hfile hother hsame)
    · intro hnone file other hfile hother hsame
      rcases (idOf?_eq_iff h hfile hother).1 hsame with heq | htwins | htwins
      · exact heq
      · exact absurd htwins (hnone file other hfile hother)
      · exact absurd htwins (hnone other file hother hfile)
  · obtain ⟨_, _, _, _, hid⟩ := exists_stem h hfile
    exact ⟨_, mem_scanIds_iff.2 ⟨file, hfile, hid⟩, hid, leadsBack_iff h hfile hid⟩

/-- Adds an empty record to a tree. -/
def addRecord (tree : FileTree) (path : String) : FileTree :=
  (tree.place path "{}" (.second 0)).toOption.getD tree

theorem wellFormed_addRecord {tree : FileTree} (h : tree.WellFormed) (path : String) :
    (addRecord tree path).WellFormed := FileTree.wellFormed_getD_place h path "{}" (.second 0)

/-- Twins, and a record that has a directory and two dots. -/
def dottedTree : FileTree :=
  addRecord (addRecord (addRecord (.empty "/work") "nfo/..json") "nfo/...json")
    "nfo/scifi/alien.v2.json"

theorem wellFormed_dottedTree : dottedTree.WellFormed := by
  have hempty : (FileTree.empty "/work").WellFormed := FileTree.wellFormed_empty (by decide +kernel)
  exact wellFormed_addRecord (wellFormed_addRecord (wellFormed_addRecord hempty _) _) _

theorem directory?_dottedTree : dottedTree.directory? "nfo" = some "/work/nfo" := by decide +kernel

theorem filesBelow_dottedTree :
    dottedTree.filesBelow "/work/nfo" = ["...json", "..json", "scifi/alien.v2.json"] := by
  decide +kernel

theorem isFile_dottedTree {file : String}
    (h : file ∈ ["...json", "..json", "scifi/alien.v2.json"]) : IsFile dottedTree "nfo" file := by
  have hextension : ∀ file ∈ ["...json", "..json", "scifi/alien.v2.json"],
      Path.extension? file = some fileExtension := by decide +kernel
  exact ⟨"/work/nfo", directory?_dottedTree, filesBelow_dottedTree ▸ h, hextension file h⟩

/-- The twins are two files with one identifier, which leads to one of them. -/
theorem twins_share_identifier :
    IsFile dottedTree "nfo" "..json" ∧ IsFile dottedTree "nfo" "...json" ∧
      idOf? [fileExtension] "..json" = some ".." ∧ idOf? [fileExtension] "...json" = some ".." ∧
      (scanIds dottedTree "nfo" [fileExtension]).count ".." = 2 ∧
      path "nfo" ".." = "nfo/...json" := by
  refine ⟨isFile_dottedTree (by decide), isFile_dottedTree (by decide), by decide +kernel,
    by decide +kernel, ?_, by decide +kernel⟩
  unfold scanIds
  rw [directory?_dottedTree]
  dsimp only
  rw [(List.mergeSort_perm _ _).count_eq, filesBelow_dottedTree]
  decide +kernel

/-- The record in the directory is found again, and one of the twins is not. -/
theorem scanned_ids_lead_back_dotted :
    dottedTree.WellFormed ∧ ¬ (scanIds dottedTree "nfo" [fileExtension]).Nodup ∧
      LeadsBack dottedTree "nfo" "scifi/alien.v2.json" "scifi/alien.v2" ∧
      ¬ LeadsBack dottedTree "nfo" "..json" ".." := by
  obtain ⟨hnodup, _, hback⟩ := scanned_ids_lead_back dottedTree wellFormed_dottedTree "nfo"
  have hone : IsFile dottedTree "nfo" "..json" := isFile_dottedTree (by decide)
  have htwo : IsFile dottedTree "nfo" "...json" := isFile_dottedTree (by decide)
  have hdeep : IsFile dottedTree "nfo" "scifi/alien.v2.json" := isFile_dottedTree (by decide)
  have htwins : Twins "..json" "...json" := ⟨"", by decide +kernel, by decide +kernel⟩
  refine ⟨wellFormed_dottedTree, fun hall => hnodup.1 hall _ _ hone htwo htwins, ?_, ?_⟩
  · obtain ⟨id, _, hid, hleads⟩ := hback _ hdeep
    have hvalue : idOf? [fileExtension] "scifi/alien.v2.json" = some "scifi/alien.v2" := by
      decide +kernel
    obtain rfl := Option.some.inj (hvalue.symm.trans hid)
    refine hleads.2 ?_
    have hjoin : "scifi/alien.v2.json" = Path.join "scifi" ("alien.v2" ++ ".json") := by
      decide +kernel
    rw [hjoin, dotted_join_iff (by decide)]
    decide
  · obtain ⟨id, _, hid, hleads⟩ := hback _ hone
    have hvalue : idOf? [fileExtension] "..json" = some ".." := by decide +kernel
    obtain rfl := Option.some.inj (hvalue.symm.trans hid)
    intro hlost
    exact hleads.1 hlost ⟨"", by decide +kernel⟩

end Record

end FilmCatalog
