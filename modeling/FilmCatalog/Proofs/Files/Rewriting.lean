/-
  FilmCatalog.Proofs.Files.Rewriting
  ──────────────────────────────────
  **WRITING A FILE THAT IS THERE ALREADY.**

  The *outline* of a tree says which locations it has and where a file stands.
  Where paths lead, and which files lie below a directory, can be read off the
  outline; texts and times do not matter.

  A path that leads to an entry leads through directories that are all there.
  So when a file is written over, no directory has to be made for it, and the
  outline stays (`sameOutline_saveFile`); the path leads to the new text then
  (`read_saveFile`).
-/
import FilmCatalog.Catalog.Document
import FilmCatalog.Proofs.Files.WellFormed

namespace FilmCatalog

/-! ## §1. The path of the directory above. -/

namespace Path

/-- Idle parts are dropped at the end of a path, which comes first here. -/
theorem dropIdle_suffix (parts : List (List Char)) : dropIdle parts <:+ parts := by
  fun_induction dropIdle parts with
  | case1 => exact List.suffix_refl _
  | case2 first => exact List.suffix_refl _
  | case3 part rest _ hcounts => exact List.suffix_refl _
  | case4 part rest _ hcounts ih => exact ih.trans (List.suffix_cons part rest)

/-- Something is left of a path that had parts. -/
theorem dropIdle_ne_nil {parts : List (List Char)} (h : parts ≠ []) : dropIdle parts ≠ [] := by
  fun_induction dropIdle parts with
  | case1 => exact absurd rfl h
  | case2 first => exact h
  | case3 part rest _ hcounts => exact h
  | case4 part rest hrest hcounts ih => exact ih hrest

/-- The directory above has the first parts of a path, but not all of them. -/
theorem parent?_cases (path : String) :
    (parent? path).getD "" = "" ∨ ∃ parts tail, parts ≠ [] ∧ tail ≠ [] ∧
      Text.splitAll '/' path.toList = parts ++ tail ∧
      (parent? path).getD "" = ofParts parts.reverse := by
  unfold parent?
  split
  · exact .inl rfl
  · exact .inl rfl
  · exact .inl rfl
  · rename_i last rest _ hrest hparts
    obtain ⟨dropped, hall⟩ := dropIdle_suffix (Text.splitAll '/' path.toList).reverse
    obtain ⟨idle, hidle⟩ := dropIdle_suffix rest
    refine .inr ⟨(dropIdle rest).reverse, idle.reverse ++ last :: dropped.reverse, ?_, ?_, ?_, ?_⟩
    · simpa using dropIdle_ne_nil hrest
    · simp
    · rw [hparts, ← hidle] at hall
      rw [← List.reverse_reverse (Text.splitAll '/' path.toList), ← hall]
      simp
    · rw [List.reverse_reverse]
      rfl

/-- What the text of the first parts of a path has to do with the path: it is
the start of it, and it has these parts, except that the root has one more. -/
theorem ofParts_of_splitAll {path : String} {parts tail : List (List Char)} (hparts : parts ≠ [])
    (htail : tail ≠ []) (h : Text.splitAll '/' path.toList = parts ++ tail) :
    (ofParts parts.reverse).toList <+: path.toList ∧
      (Text.splitAll '/' (ofParts parts.reverse).toList = parts ∨
        ofParts parts.reverse = "/") := by
  have hplain : ∀ part ∈ parts, '/' ∉ part := by
    intro part hpart
    exact Text.not_mem_of_mem_splitAll (h ▸ List.mem_append_left _ hpart)
  have hpath : path.toList = ['/'].intercalate parts ++ '/' :: ['/'].intercalate tail := by
    have hjoin : ['/'].intercalate (Text.splitAll '/' path.toList) = path.toList := by
      rw [Text.splitAll_eq]
      exact List.intercalate_splitOn '/'
    rw [← hjoin, h, Text.intercalate_append '/' hparts htail]
  by_cases hroot : parts = [[]]
  · subst hroot
    refine ⟨?_, .inr rfl⟩
    rw [hpath]
    exact ⟨['/'].intercalate tail, rfl⟩
  · have htext : ofParts parts.reverse = String.ofList (['/'].intercalate parts) := by
      unfold ofParts
      split
      · rename_i hreverse
        exact absurd (List.reverse_eq_iff.1 hreverse) hroot
      · rw [List.reverse_reverse]
    rw [htext, String.toList_ofList, hpath]
    refine ⟨List.prefix_append _ _, .inl ?_⟩
    rw [Text.splitAll_eq]
    exact List.splitOn_intercalate '/' hplain hparts

end Path

namespace FileTree

/-! ## §2. No directory has to be made. -/

/-- A step to a directory is a step that makes none. -/
theorem makeAlong_cons_of_step {tree : FileTree} {location part next : String}
    (h : tree.step location part = .ok next) (hnext : tree.entry? next = some .directory)
    (making : Bool) (rest : List String) :
    tree.makeAlong making location (part :: rest) = tree.makeAlong making next rest := by
  unfold step at h
  rw [makeAlong]
  split at h
  · cases h
  · cases h
  · -- Both go through the same tests, one after the other.
    split at h
    · cases h
      rw [if_pos (by assumption)]
    · rw [if_neg (by assumption)]
      split at h
      · cases h
        rw [if_pos (by assumption)]
      · rw [if_neg (by assumption)]
        split at h
        · cases h
        · rw [if_neg (by assumption)]
          split at h
          · cases h
            simp only [hnext]
          · cases h

/-- **Where a walk goes on, all directories on its way are there already.** -/
theorem makeAlong_of_walk {tree : FileTree} {parts tail : List String} (htail : tail ≠ [])
    {location found : String} (h : tree.walk location (parts ++ tail) = .ok found) (making : Bool) :
    tree.makeAlong making location parts = ⟨tree, none⟩ := by
  induction parts generalizing location with
  | nil => rfl
  | cons part rest ih =>
    rw [List.cons_append, walk] at h
    split at h
    · rename_i next hstep
      have hnext := directory_of_walk (List.append_ne_nil_of_right_ne_nil rest htail) h
      rw [makeAlong_cons_of_step hstep hnext]
      exact ih h
    · cases h

theorem flaw?_of_locate {tree : FileTree} {path location : String}
    (h : tree.locate path = .ok location) : flaw? path = none := (locate_eq_ok_iff.1 h).1

/-- The start of a path has no flaw that the path does not have. -/
theorem flaw?_of_start {path start : String} (h : flaw? path = none)
    (hstart : start.toList <+: path.toList) (hne : start ≠ "") : flaw? start = none := by
  obtain ⟨rest, hrest⟩ := hstart
  have hpath : path = start ++ String.ofList rest := by
    rw [← String.toList_inj, String.toList_append, String.toList_ofList, hrest]
  unfold flaw? at h ⊢
  rw [hpath] at h
  split at h
  · cases h
  · rename_i hnul
    split at h
    · cases h
    · split at h
      · cases h
      · rename_i hlong
        rw [String.utf8ByteSize_append] at hlong
        have hnul' : ¬ start.toList.contains '\x00' = true := by
          intro hmem
          refine hnul ?_
          rw [String.toList_append, List.contains_append, hmem, Bool.true_or]
        rw [if_neg hnul', if_neg hne, if_neg (by omega)]

/-- **The directory above an entry is there already.** -/
theorem makeDirectories_of_locate {tree : FileTree} {path location : String}
    (h : tree.locate path = .ok location) :
    tree.makeDirectories ((Path.parent? path).getD "") = ⟨tree, none⟩ := by
  have hflaw := flaw?_of_locate h
  rcases Path.parent?_cases path with hnone | ⟨parts, tail, hparts, htail, hsplit, hparent⟩
  · rw [hnone]
    rfl
  · rw [hparent]
    obtain ⟨hstart, hpieces⟩ := Path.ofParts_of_splitAll hparts htail hsplit
    generalize Path.ofParts parts.reverse = parent at hstart hpieces
    unfold makeDirectories
    by_cases hempty : parent = ""
    · rw [if_pos hempty]
    · rw [if_neg hempty, flaw?_of_start hflaw hstart hempty]
      -- Both paths start at the same place.
      have hhead : tree.start parent = tree.start path := by
        have hchars : parent.toList ≠ [] := fun hnil => hempty (String.toList_eq_nil_iff.1 hnil)
        obtain ⟨c, others, hc⟩ := List.exists_cons_of_ne_nil hchars
        obtain ⟨rest, hrest⟩ := hstart
        unfold start Path.isAbsolute
        rw [← hrest, hc]
        rfl
      show tree.makeAlong false (tree.start parent) (Text.pieces '/' parent) = _
      rcases hpieces with hpieces | rfl
      · unfold locate at h
        rw [hflaw] at h
        unfold Text.pieces at h ⊢
        rw [hsplit, List.map_append] at h
        rw [hpieces, hhead]
        exact makeAlong_of_walk (by simpa using htail) h false
      · rfl

/-! ## §3. Outlines. -/

end FileTree

/-- Whether an entry is a file. -/
def Entry.isFile : Entry → Bool
  | .file _ _ => true
  | .directory => false

namespace FileTree

/-- Which locations there are, and where a file stands. -/
def outline (tree : FileTree) : SortedMap Bool := tree.entries.map Entry.isFile

/-- **The trees differ in texts and times at most.** -/
structure SameOutline (tree other : FileTree) : Prop where
  outline : other.outline = tree.outline
  workingDirectory : other.workingDirectory = tree.workingDirectory

theorem SameOutline.refl (tree : FileTree) : tree.SameOutline tree := ⟨rfl, rfl⟩

theorem SameOutline.trans {a b c : FileTree} (hab : a.SameOutline b) (hbc : b.SameOutline c) :
    a.SameOutline c :=
  ⟨hbc.outline.trans hab.outline, hbc.workingDirectory.trans hab.workingDirectory⟩

/-- Whether a location holds a file is told by the outline. -/
theorem isFile_eq_outline (tree : FileTree) (location : String) :
    (tree.entry? location).map Entry.isFile
      = if location = "" then some false else tree.outline.get? location := by
  unfold entry? outline
  split
  · rfl
  · rw [SortedMap.get?_map]

section SameOutline

variable {tree other : FileTree} (h : tree.SameOutline other)

include h

theorem SameOutline.isFile_at (location : String) :
    (other.entry? location).map Entry.isFile = (tree.entry? location).map Entry.isFile := by
  rw [isFile_eq_outline, isFile_eq_outline, h.outline]

/-- A step goes where it went. -/
theorem SameOutline.step (location part : String) :
    other.step location part = tree.step location part := by
  have hhere := h.isFile_at location
  have hnext : (other.entry? (child location part)).isSome
      = (tree.entry? (child location part)).isSome := by
    have hkinds := congrArg Option.isSome (h.isFile_at (child location part))
    rwa [Option.isSome_map, Option.isSome_map] at hkinds
  unfold FileTree.step
  rw [hnext]
  cases htree : tree.entry? location with
  | none =>
    rw [htree, Option.map_none, Option.map_eq_none_iff] at hhere
    rw [hhere]
  | some entry =>
    rw [htree, Option.map_some, Option.map_eq_some_iff] at hhere
    obtain ⟨found, hfound, hkind⟩ := hhere
    rw [hfound]
    cases entry with
    | directory =>
      cases found with
      | directory => rfl
      | file text modified => cases hkind
    | file text modified =>
      cases found with
      | directory => cases hkind
      | file text modified => rfl

/-- So does a walk. -/
theorem SameOutline.walk (location : String) (parts : List String) :
    other.walk location parts = tree.walk location parts := by
  induction parts generalizing location with
  | nil => rfl
  | cons part rest ih =>
    rw [FileTree.walk, FileTree.walk, h.step]
    split
    · exact ih _
    · rfl

/-- A path leads where it led. -/
theorem SameOutline.locate (path : String) : other.locate path = tree.locate path := by
  have hstart : other.start path = tree.start path := by
    unfold start
    rw [h.workingDirectory]
  unfold FileTree.locate
  split
  · rfl
  · rw [hstart, h.walk]

theorem SameOutline.directory? (path : String) : other.directory? path = tree.directory? path := by
  have hdirectory : ∀ location,
      other.entry? location = some .directory ↔ tree.entry? location = some .directory := by
    have hkind : ∀ found : Option Entry, found = some .directory ↔
        found.map Entry.isFile = some false := by
      rintro (_ | (_ | _)) <;> simp [Entry.isFile]
    intro location
    rw [hkind, hkind, h.isFile_at]
  unfold FileTree.directory?
  rw [h.locate]
  split
  · simp only [hdirectory]
  · rfl

/-- The files below a location can be read off the outline. -/
theorem SameOutline.filesBelow (location : String) :
    other.filesBelow location = tree.filesBelow location := by
  have houtline : ∀ t : FileTree, t.filesBelow location = t.outline.entries.filterMap fun entry =>
      if entry.2 then Text.afterStart? (location ++ "/") entry.1 else none := by
    intro t
    show _ = (t.entries.entries.map fun entry => (entry.1, entry.2.isFile)).filterMap _
    rw [List.filterMap_map]
    refine congrArg (fun f => t.entries.entries.filterMap f) (funext ?_)
    rintro ⟨place, entry⟩
    cases entry with
    | directory => rfl
    | file text modified => rfl
  rw [houtline, houtline, h.outline]

end SameOutline

/-! ## §4. Writing over a file. -/

/-- A file that is written over stays in the outline. -/
theorem sameOutline_put {tree : FileTree} {location : String}
    (h : (tree.entry? location).map Entry.isFile = some true) (text : String) (modified : Modified) :
    tree.SameOutline (tree.put location (.file text modified)) := by
  refine ⟨?_, rfl⟩
  rw [isFile_eq_outline] at h
  split at h
  · cases h
  · -- What the outline says of the location is what it said before.
    refine SortedMap.ext_get? fun key => ?_
    show (SortedMap.map _ (SortedMap.insert _ _ _)).get? key = _
    rw [SortedMap.get?_map, SortedMap.get?_insert]
    by_cases hkey : location = key
    · rw [if_pos hkey, ← hkey, h]
      rfl
    · rw [if_neg hkey]
      exact (SortedMap.get?_map _ _ _).symm

/-- A file that was put in the place of another one is found there. -/
theorem entry_put {tree : FileTree} {location text : String} {modified : Modified}
    (h : tree.entry? location = some (.file text modified)) (fresh : Entry) :
    entry? (tree.put location fresh) location = some fresh := by
  have hroot : location ≠ "" := by
    rintro rfl
    cases h
  rw [entry?_put tree hroot, if_pos rfl]

/-- What can be read is a file at the end of its path. -/
theorem read_eq_ok {tree : FileTree} {path text : String} (h : tree.read path = .ok text) :
    ∃ location modified, tree.locate path = .ok location ∧
      tree.entry? location = some (.file text modified) := by
  unfold read at h
  split at h
  · cases h
  · rename_i location hlocate
    split at h
    · rename_i found modified hentry
      cases h
      exact ⟨location, modified, hlocate, hentry⟩
    · cases h
    · cases h

end FileTree

namespace Record

/-- A record that could be read is written where it stands, and no directory has
to be made. -/
theorem saveFile_of_entry {tree : FileTree} {infos id location text : String} {modified : Modified}
    (hlocate : tree.locate (path infos id) = .ok location)
    (hentry : tree.entry? location = some (.file text modified)) (r : Record) :
    r.saveFile tree infos id = ⟨tree.put location (.file r.text .now), .ok ()⟩ := by
  have hwrite : tree.write (path infos id) r.text
      = .ok (tree.put location (.file r.text .now)) := by
    unfold FileTree.write FileTree.writeAt
    rw [hlocate]
    simp only [hentry]
  unfold saveFile
  simp only [FileTree.makeDirectories_of_locate hlocate, hwrite]

/-- **A record that could be read is written in its place**: all locations stay,
and no file or directory is added. -/
theorem sameOutline_saveFile {tree : FileTree} {infos id text : String}
    (h : tree.read (path infos id) = .ok text) (r : Record) :
    tree.SameOutline (r.saveFile tree infos id).tree := by
  obtain ⟨location, modified, hlocate, hentry⟩ := FileTree.read_eq_ok h
  rw [saveFile_of_entry hlocate hentry]
  refine FileTree.sameOutline_put ?_ _ _
  rw [hentry]
  rfl

/-- **The new text is what a reader finds.** -/
theorem read_saveFile {tree : FileTree} {infos id text : String}
    (h : tree.read (path infos id) = .ok text) (r : Record) :
    (r.saveFile tree infos id).result = .ok () ∧
      (r.saveFile tree infos id).tree.read (path infos id) = .ok r.text := by
  obtain ⟨location, modified, hlocate, hentry⟩ := FileTree.read_eq_ok h
  have houtline := sameOutline_saveFile h r
  have hput : FileTree.entry? (tree.put location (.file r.text .now)) location
      = some (.file r.text .now) := FileTree.entry_put hentry _
  rw [saveFile_of_entry hlocate hentry] at houtline ⊢
  refine ⟨rfl, ?_⟩
  unfold FileTree.read
  rw [houtline.locate, hlocate]
  simp only [hput]

end Record

end FilmCatalog
