/-
  FilmCatalog.Proofs.Files.WellFormed
  ───────────────────────────────────
  **DIRECTORY TREES.**

  In a directory tree each entry has a name, and it lies in a directory that is
  an entry of the tree too (`WellFormed`).

    • `wellFormed_makeDirectories`, `wellFormed_writeAt`, `wellFormed_place`
      — every operation leaves a directory tree,
    • `exists_below` — a location is told by the names on the way to it,
    • `locate_join` — the path of a file below a directory leads to the file.
-/
import FilmCatalog.Files.Tree
import FilmCatalog.Proofs.SortedMap
import FilmCatalog.Proofs.Text

namespace FilmCatalog

namespace FileTree

/-! ## §1. Names and places. -/

/-- The names that an entry of a directory can have. -/
structure IsName (name : String) : Prop where
  plain : '/' ∉ name.toList
  filled : name ≠ ""
  undotted : name ≠ "." ∧ name ≠ ".."
  short : isLongName name = false

/-- **The entries form a tree**: each of them has a name in a directory. -/
structure WellFormed (tree : FileTree) : Prop where
  placed : ∀ location entry, tree.entries.get? location = some entry →
    ∃ directory name, location = child directory name ∧ IsName name ∧
      tree.entry? directory = some .directory
  working : tree.entry? tree.workingDirectory = some .directory

/-- The root has no name in any directory. -/
theorem child_ne_root (directory name : String) : child directory name ≠ "" := by
  intro h
  have hchars := congrArg String.toList h
  rw [child, Text.toList_slash] at hchars
  simp at hchars

/-- An entry lies in the directory that it was made in. -/
theorem above_child (directory : String) {name : String} (h : '/' ∉ name.toList) :
    above (child directory name) = directory := by
  unfold above child
  rw [Text.cutLast_slash directory h]

/-- A location is told by its directory and its name. -/
theorem child_inj {directory other name last : String} (hname : '/' ∉ name.toList)
    (hlast : '/' ∉ last.toList) (h : child directory name = child other last) :
    directory = other ∧ name = last := by
  have hcut := congrArg (Text.cutLast '/') h
  unfold child at hcut
  rw [Text.cutLast_slash directory hname, Text.cutLast_slash other hlast] at hcut
  exact Prod.mk.inj (Option.some.inj hcut)

theorem entry?_of_ne_root (tree : FileTree) {location : String} (h : location ≠ "") :
    tree.entry? location = tree.entries.get? location := if_neg h

/-- A new entry is found at its location, and all others where they were. -/
theorem entry?_put (tree : FileTree) {location : String} (h : location ≠ "") (entry : Entry)
    (other : String) :
    entry? (tree.put location entry) other
      = if location = other then some entry else tree.entry? other := by
  by_cases hother : other = ""
  · subst hother
    rw [if_neg h]
    rfl
  · rw [entry?_of_ne_root _ hother, entry?_of_ne_root _ hother]
    exact SortedMap.get?_insert _ _ _ _

section WellFormed

variable {tree : FileTree} (h : tree.WellFormed)

include h

/-- An entry lies in the directory that its location names. -/
theorem WellFormed.directory_of_child {directory name : String} {entry : Entry}
    (hname : '/' ∉ name.toList) (hentry : tree.entry? (child directory name) = some entry) :
    tree.entry? directory = some .directory := by
  rw [entry?_of_ne_root _ (child_ne_root _ _)] at hentry
  obtain ⟨other, last, heq, hlast, hother⟩ := h.placed _ _ hentry
  rwa [(child_inj hname hlast.plain heq).1]

/-- Whatever is in a tree lies in a directory. -/
theorem WellFormed.directory_above {location : String} {entry : Entry}
    (hentry : tree.entry? location = some entry) :
    tree.entry? (above location) = some .directory := by
  by_cases hroot : location = ""
  · subst hroot
    rfl
  · rw [entry?_of_ne_root _ hroot] at hentry
    obtain ⟨directory, name, rfl, hname, hdirectory⟩ := h.placed _ _ hentry
    rwa [above_child directory hname.plain]

/-- Every path starts in a directory. -/
theorem WellFormed.start (path : String) : tree.entry? (tree.start path) = some .directory := by
  unfold FileTree.start
  split
  · rfl
  · exact h.working

/-! ## §2. Operations. -/

/-- A change that keeps all directories, and adds entries to them only. -/
theorem WellFormed.changed {next : FileTree}
    (hworking : next.workingDirectory = tree.workingDirectory)
    (hkept : ∀ other, tree.entry? other = some .directory → next.entry? other = some .directory)
    (hplaced : ∀ location entry, next.entries.get? location = some entry →
      tree.entries.get? location = some entry ∨ ∃ directory name,
        location = child directory name ∧ IsName name ∧ tree.entry? directory = some .directory) :
    next.WellFormed := by
  refine ⟨fun location entry hentry => ?_, hworking ▸ hkept _ h.working⟩
  have hold : ∃ directory name, location = child directory name ∧ IsName name ∧
      tree.entry? directory = some .directory := by
    rcases hplaced location entry hentry with hold | hnew
    · exact h.placed location entry hold
    · exact hnew
  obtain ⟨directory, name, heq, hname, hdirectory⟩ := hold
  exact ⟨directory, name, heq, hname, hkept directory hdirectory⟩

/-- **An entry in a directory**, which is not put in the place of a directory. -/
theorem wellFormed_put {directory name : String} (hname : IsName name)
    (hdirectory : tree.entry? directory = some .directory) {entry : Entry}
    (hplace : tree.entry? (child directory name) ≠ some .directory) :
    (tree.put (child directory name) entry).WellFormed := by
  refine h.changed rfl (fun other hother => ?_) fun location found hfound => ?_
  · have hne : child directory name ≠ other := by
      rintro rfl
      exact hplace hother
    rw [entry?_put tree (child_ne_root directory name), if_neg hne]
    exact hother
  · change (tree.entries.insert _ entry).get? location = some found at hfound
    rw [SortedMap.get?_insert] at hfound
    split at hfound
    · rename_i heq
      exact .inr ⟨directory, name, heq.symm, hname, hdirectory⟩
    · exact .inl hfound

end WellFormed

/-- **Making directories**, from a directory on. -/
theorem wellFormed_makeAlong (parts : List String) {tree : FileTree} (h : tree.WellFormed)
    (hparts : ∀ part ∈ parts, '/' ∉ part.toList) (making : Bool) {location : String}
    (hlocation : tree.entry? location = some .directory) :
    (tree.makeAlong making location parts).tree.WellFormed := by
  induction parts generalizing tree making location with
  | nil => exact h
  | cons part rest ih =>
    have hrest : ∀ part ∈ rest, '/' ∉ part.toList :=
      fun other hother => hparts other (List.mem_cons_of_mem _ hother)
    rw [makeAlong]
    split
    · exact ih h hrest making hlocation
    · rename_i hidle
      split
      · exact ih h hrest making (h.directory_above hlocation)
      · rename_i hdots
        split
        · exact h
        · rename_i hshort
          cases hentry : tree.entry? (child location part) with
          | none =>
            have hname : IsName part :=
              ⟨hparts part List.mem_cons_self, fun heq => hidle (.inl heq),
                ⟨fun heq => hidle (.inr heq), hdots⟩, Bool.not_eq_true _ ▸ hshort⟩
            refine ih (wellFormed_put h hname hlocation ?_) hrest true ?_
            · rw [hentry]
              exact (Option.some_ne_none _).symm
            · rw [entry?_put tree (child_ne_root _ _), if_pos rfl]
          | some entry =>
            cases entry with
            | directory => exact ih h hrest making hentry
            | file text modified => exact h

/-- **Making directories** leaves a tree. -/
theorem wellFormed_makeDirectories {tree : FileTree} (h : tree.WellFormed) (path : String) :
    (tree.makeDirectories path).tree.WellFormed := by
  unfold makeDirectories
  split
  · exact h
  · split
    · exact h
    · exact wellFormed_makeAlong _ h (fun _ hpart => Text.not_mem_of_mem_pieces hpart) false
        (h.start path)

/-- What stands at the end of a step. -/
theorem WellFormed.exists_of_step {tree : FileTree} (h : tree.WellFormed)
    {location part next : String} (hstep : tree.step location part = .ok next) : ∃ entry, tree.entry? next = some entry := by
  unfold step at hstep
  split at hstep
  · cases hstep
  · cases hstep
  · rename_i hlocation
    split at hstep
    · cases hstep
      exact ⟨_, hlocation⟩
    · split at hstep
      · cases hstep
        exact ⟨_, h.directory_above hlocation⟩
      · split at hstep
        · cases hstep
        · split at hstep
          · rename_i hsome
            cases hstep
            exact Option.isSome_iff_exists.1 hsome
          · cases hstep

/-- A walk ends at an entry. -/
theorem WellFormed.exists_of_walk {tree : FileTree} (h : tree.WellFormed) (parts : List String)
    {location found : String} {entry : Entry} (hlocation : tree.entry? location = some entry)
    (hwalk : tree.walk location parts = .ok found) : ∃ entry, tree.entry? found = some entry := by
  induction parts generalizing location entry with
  | nil =>
    cases hwalk
    exact ⟨entry, hlocation⟩
  | cons part rest ih =>
    rw [walk] at hwalk
    split at hwalk
    · rename_i next hstep
      obtain ⟨there, hthere⟩ := h.exists_of_step hstep
      exact ih hthere hwalk
    · cases hwalk

/-- A path that leads somewhere leads to an entry. -/
theorem WellFormed.exists_of_locate {tree : FileTree} (h : tree.WellFormed) {path location : String}
    (hlocate : tree.locate path = .ok location) : ∃ entry, tree.entry? location = some entry := by
  unfold locate at hlocate
  split at hlocate
  · cases hlocate
  · exact h.exists_of_walk _ (h.start path) hlocate

/-- A walk along two lists of parts goes along the first one, and on from
there. -/
theorem walk_append (tree : FileTree) (location : String) (parts others : List String) :
    tree.walk location (parts ++ others)
      = (tree.walk location parts).bind fun middle => tree.walk middle others := by
  induction parts generalizing location with
  | nil => rfl
  | cons part rest ih =>
    rw [List.cons_append, walk, walk]
    split
    · exact ih _
    · rfl

/-- A walk goes on from directories only. -/
theorem directory_of_walk {tree : FileTree} {location found : String} {parts : List String}
    (hparts : parts ≠ []) (h : tree.walk location parts = .ok found) :
    tree.entry? location = some .directory := by
  obtain ⟨part, rest, rfl⟩ := List.exists_cons_of_ne_nil hparts
  rw [walk] at h
  cases hentry : tree.entry? location with
  | none => simp [step, hentry] at h
  | some entry =>
    cases entry with
    | directory => rfl
    | file text modified => simp [step, hentry] at h

/-- Slashes at the end of a path to something that is there: they do not make it
missing. -/
theorem walk_blank {tree : FileTree} {location : String} {entry : Entry}
    (h : tree.entry? location = some entry) {parts : List String}
    (hparts : ∀ part ∈ parts, part = "") : tree.walk location parts ≠ .error .notFound := by
  induction parts with
  | nil =>
    intro heq
    cases heq
  | cons part rest ih =>
    rw [walk, hparts part List.mem_cons_self, step, h]
    cases entry with
    | directory => exact ih fun other hother => hparts other (List.mem_cons_of_mem _ hother)
    | file text modified =>
      intro heq
      cases heq

/-- A step that misses its entry has a name for it. -/
theorem isName_of_missing {tree : FileTree} {location part : String}
    (hlocation : tree.entry? location = some .directory) (hplain : '/' ∉ part.toList)
    (h : tree.step location part = .error .notFound) :
    IsName part ∧ tree.entry? (child location part) = none := by
  unfold step at h
  rw [hlocation] at h
  dsimp only at h
  split at h
  · cases h
  · rename_i hidle
    split at h
    · cases h
    · rename_i hdots
      split at h
      · cases h
      · rename_i hshort
        split at h
        · cases h
        · rename_i hnone
          exact ⟨⟨hplain, fun heq => hidle (.inl heq), ⟨fun heq => hidle (.inr heq), hdots⟩,
            Bool.not_eq_true _ ▸ hshort⟩, Option.not_isSome_iff_eq_none.1 hnone⟩

/-- The parts of a path are its last name, those before it and blank ones
behind it. -/
theorem exists_blanks {parts others : List String} {name : String}
    (h : parts.reverse.dropWhile (· = "") = name :: others) :
    ∃ blanks, (∀ part ∈ blanks, part = "") ∧ parts = others.reverse ++ name :: blanks := by
  refine ⟨(parts.reverse.takeWhile (· = "")).reverse, fun part hpart => ?_, ?_⟩
  · have hblank := List.mem_takeWhile_imp (List.mem_reverse.1 hpart)
    exact of_decide_eq_true hblank
  · have hall : parts.reverse.takeWhile (· = "") ++ name :: others = parts.reverse := by
      rw [← h, List.takeWhile_append_dropWhile]
    have hparts := congrArg List.reverse hall
    rw [List.reverse_reverse, List.reverse_append, List.reverse_cons, List.append_assoc,
      List.singleton_append] at hparts
    exact hparts.symm

/-- A new file has a name of its own in a directory that is there. -/
theorem WellFormed.newLocation {tree : FileTree} (h : tree.WellFormed) {path location : String}
    (hlocate : tree.locate path = .error .notFound) (hnew : tree.newLocation path = .ok location) :
    ∃ directory name, location = child directory name ∧ IsName name ∧
      tree.entry? directory = some .directory ∧ tree.entry? location = none := by
  unfold FileTree.newLocation at hnew
  split at hnew
  · cases hnew
  · cases hnew
  · rename_i name others hflaw hlast
    split at hnew
    · cases hnew
    · rename_i directory hwalk
      split at hnew
      · rename_i hdirectory
        cases hnew
        -- The path goes on from the directory by the name, and then by slashes only.
        obtain ⟨blanks, hblanks, hpieces⟩ := exists_blanks hlast
        have hmem : name ∈ Text.pieces '/' path := by
          rw [hpieces]
          exact List.mem_append_right _ List.mem_cons_self
        unfold locate at hlocate
        rw [hflaw] at hlocate
        dsimp only at hlocate
        rw [hpieces, walk_append, hwalk] at hlocate
        change tree.walk directory (name :: blanks) = _ at hlocate
        rw [walk] at hlocate
        split at hlocate
        · rename_i next hstep
          obtain ⟨entry, hentry⟩ := h.exists_of_step hstep
          exact absurd hlocate (walk_blank hentry hblanks)
        · rename_i error hstep
          cases hlocate
          obtain ⟨hname, hnone⟩ := 
            isName_of_missing hdirectory (Text.not_mem_of_mem_pieces hmem) hstep
          exact ⟨directory, name, rfl, hname, hdirectory, hnone⟩
      · cases hnew

/-- **Writing a file.** -/
theorem wellFormed_writeAt {tree next : FileTree} (h : tree.WellFormed) {modified : Modified}
    {path text : String} (hwrite : tree.writeAt modified path text = .ok next) :
    next.WellFormed := by
  unfold writeAt at hwrite
  split at hwrite
  · rename_i location hlocate
    split at hwrite
    · cases hwrite
    · rename_i hother
      cases hwrite
      have hplace : tree.entry? location ≠ some .directory := hother
      -- A file is there already, and it has its name in a directory.
      obtain ⟨entry, hentry⟩ := h.exists_of_locate hlocate
      have hroot : location ≠ "" := by
        rintro rfl
        exact hplace rfl
      obtain ⟨directory, name, rfl, hname, hdirectory⟩ :=
        h.placed location entry ((tree.entry?_of_ne_root hroot).symm.trans hentry)
      exact wellFormed_put h hname hdirectory hplace
  · rename_i error hlocate
    split at hwrite
    · cases hwrite
    · rename_i location hnew
      split at hwrite
      · cases hwrite
      · split at hwrite
        · rename_i herror
          cases hwrite
          rw [herror] at hlocate
          obtain ⟨directory, name, rfl, hname, hdirectory, hnone⟩ := h.newLocation hlocate hnew
          refine wellFormed_put h hname hdirectory ?_
          rw [hnone]
          exact (Option.some_ne_none _).symm
        · cases hwrite

/-- **Writing a file and making the directories above it.** -/
theorem wellFormed_place {tree next : FileTree} (h : tree.WellFormed) {path text : String}
    {modified : Modified} (hplace : tree.place path text modified = .ok next) :
    next.WellFormed := by
  unfold place at hplace
  dsimp only at hplace
  split at hplace
  · cases hplace
  · exact wellFormed_writeAt (wellFormed_makeDirectories h _) hplace

/-- A file that is added to a tree if there is room for it. -/
theorem wellFormed_getD_place {tree : FileTree} (h : tree.WellFormed) (path text : String)
    (modified : Modified) : ((tree.place path text modified).toOption.getD tree).WellFormed := by
  cases hplace : tree.place path text modified with
  | error error => exact h
  | ok next => exact wellFormed_place h hplace

/-- **The tree that others start from**, if its working directory could be made. -/
theorem wellFormed_empty {workingDirectory : String}
    (h : entry? (empty workingDirectory) workingDirectory = some .directory) :
    (empty workingDirectory).WellFormed := by
  have hbare : WellFormed ⟨.empty, ""⟩ := by
    refine ⟨fun location entry hentry => ?_, rfl⟩
    exact absurd hentry.symm (Option.some_ne_none entry)
  exact ⟨(wellFormed_makeDirectories hbare workingDirectory).placed, h⟩

/-! ## §3. Ways. -/

/-- Where names lead to, one after the other. -/
def below (location : String) (names : List String) : String := names.foldl child location

theorem below_concat (location : String) (names : List String) (name : String) :
    below location (names ++ [name]) = child (below location names) name :=
  List.foldl_concat _ _ _ _

/-- The names on the way are the parts of the location. -/
theorem pieces_below (location : String) {names : List String} (h : ∀ name ∈ names, IsName name) :
    Text.pieces '/' (below location names) = Text.pieces '/' location ++ names := by
  induction names generalizing location with
  | nil => exact (List.append_nil _).symm
  | cons name rest ih =>
    have hname := (h name List.mem_cons_self).plain
    show Text.pieces '/' (below (child location name) rest) = _
    rw [ih _ fun other hother => h other (List.mem_cons_of_mem _ hother), child, Text.pieces_slash,
      Text.pieces_of_not_mem hname, List.append_assoc, List.singleton_append]

section Ways

variable {tree : FileTree} (h : tree.WellFormed)

include h

/-- **A location is told by names.** -/
theorem WellFormed.exists_below {location : String} {entry : Entry}
    (hentry : tree.entry? location = some entry) :
    ∃ names, (∀ name ∈ names, IsName name) ∧ location = below "" names := by
  -- The directory of an entry has a shorter location.
  induction hlength : location.toList.length using Nat.strong_induction_on
    generalizing location entry with
  | _ length ih =>
    by_cases hroot : location = ""
    · exact ⟨[], fun _ hname => absurd hname List.not_mem_nil, hroot⟩
    · rw [entry?_of_ne_root _ hroot] at hentry
      obtain ⟨directory, name, rfl, hname, hdirectory⟩ := h.placed _ _ hentry
      have hshorter : directory.toList.length < length := by
        rw [← hlength, child, Text.toList_slash, List.length_append, List.length_cons]
        omega
      obtain ⟨names, hnames, rfl⟩ := ih _ hshorter hdirectory rfl
      refine ⟨names ++ [name], fun other hother => ?_, (below_concat _ _ _).symm⟩
      rcases List.mem_append.1 hother with hother | hother
      · exact hnames other hother
      · rwa [List.mem_singleton.1 hother]

/-- **A walk by the names of an entry finds it.** -/
theorem WellFormed.walk_below {location : String} {names : List String}
    (hnames : ∀ name ∈ names, IsName name) {entry : Entry}
    (hentry : tree.entry? (below location names) = some entry) :
    tree.walk location names = .ok (below location names) := by
  induction names using List.reverseRecOn generalizing entry with
  | nil => rfl
  | append_singleton names name ih =>
    have hname := hnames name (List.mem_append_right _ List.mem_cons_self)
    rw [below_concat] at hentry ⊢
    have hdirectory := h.directory_of_child hname.plain hentry
    have hfront := ih (fun other hother => hnames other (List.mem_append_left _ hother)) hdirectory
    rw [walk_append, hfront]
    show tree.walk (below location names) [name] = _
    have hstep : tree.step (below location names) name
        = .ok (child (below location names) name) := by
      have hidle : ¬ (name = "" ∨ name = ".") := not_or.2 ⟨hname.filled, hname.undotted.1⟩
      have hshort : ¬ isLongName name = true := Bool.not_eq_true _ ▸ hname.short
      unfold step
      rw [hdirectory]
      dsimp only
      rw [if_neg hidle, if_neg hname.undotted.2, if_neg hshort, hentry]
      rfl
    rw [walk, hstep]
    rfl

omit h in

/-- The files below a location are the file entries there. -/
theorem mem_filesBelow {location file : String} :
    file ∈ tree.filesBelow location ↔
      ∃ text modified, tree.entry? (child location file) = some (.file text modified) := by
  unfold filesBelow
  rw [List.mem_filterMap, entry?_of_ne_root _ (child_ne_root _ _)]
  constructor
  · rintro ⟨⟨other, entry⟩, hmem, hfile⟩
    cases entry with
    | directory => cases hfile
    | file text modified =>
      obtain rfl := Text.afterStart?_eq_some_iff.1 hfile
      exact ⟨text, modified, SortedMap.get?_of_mem_entries hmem⟩
  · rintro ⟨text, modified, hentry⟩
    exact ⟨(child location file, .file text modified), SortedMap.mem_entries_iff.2 hentry,
      Text.afterStart?_eq_some_iff.2 rfl⟩

omit h in

/-- No file is listed twice. -/
theorem nodup_filesBelow (tree : FileTree) (location : String) :
    (tree.filesBelow location).Nodup := by
  refine List.pairwise_filterMap.2 (tree.entries.ascending.imp ?_)
  rintro ⟨first, entry⟩ ⟨second, other⟩ hlt file hfile last hlast rfl
  cases entry with
  | directory => cases hfile
  | file text modified =>
    cases other with
    | directory => cases hlast
    | file text modified =>
      have hfirst : first = child location file := Text.afterStart?_eq_some_iff.1 hfile
      have hsecond : second = child location file := Text.afterStart?_eq_some_iff.1 hlast
      exact String.lt_irrefl _ (hsecond ▸ hfirst ▸ hlt)

/-- A file below a directory is told by names from there. -/
theorem WellFormed.names_of_file {location file : String} {entry : Entry}
    (hlocation : tree.entry? location = some entry) (hfile : file ∈ tree.filesBelow location) :
    (∀ name ∈ Text.pieces '/' file, IsName name) ∧
      below location (Text.pieces '/' file) = child location file := by
  obtain ⟨text, modified, hentry⟩ := mem_filesBelow.1 hfile
  obtain ⟨front, hfront, rfl⟩ := h.exists_below hlocation
  obtain ⟨names, hnames, hbelow⟩ := h.exists_below hentry
  -- The names up to the directory are the first ones on the way to the file.
  have hsplit : names = front ++ Text.pieces '/' file := by
    have hpieces := congrArg (Text.pieces '/') hbelow
    rw [child, Text.pieces_slash, pieces_below "" hfront, pieces_below "" hnames,
      List.append_assoc] at hpieces
    exact (List.append_cancel_left hpieces).symm
  constructor
  · intro name hname
    exact hnames name (hsplit ▸ List.mem_append_right _ hname)
  · rw [hbelow, hsplit]
    exact (List.foldl_append).symm

end Ways

end FileTree

/-! ## §4. Paths below a directory. -/

namespace Path

/-- What stands before a path below a directory. -/
def lead (directory : String) : String :=
  if directory = "" || directory.toList.getLast? == some '/' then directory else directory ++ "/"

/-- A relative path is joined with a slash at most. -/
theorem join_eq (directory : String) {path : String} (h : isAbsolute path = false) :
    join directory path = lead directory ++ path := by
  unfold join lead
  rw [h, if_neg Bool.false_ne_true]
  split
  · rfl
  · rfl

/-- Different relative paths are different below a directory. -/
theorem join_inj {directory path other : String} (hpath : isAbsolute path = false)
    (hother : isAbsolute other = false) (h : join directory path = join directory other) :
    path = other := by
  rw [join_eq directory hpath, join_eq directory hother, ← String.toList_inj, String.toList_append,
    String.toList_append] at h
  exact String.toList_inj.1 (List.append_cancel_left h)

/-- What stands in front of a relative path ends with a slash, or is nothing. -/
theorem lead_cases (directory : String) :
    lead directory = "" ∧ directory = "" ∨
      ∃ front, lead directory = front ++ "/" ∧ (directory = front ∨ directory = front ++ "/") := by
  unfold lead
  split
  · rename_i hclosed
    rcases Bool.or_eq_true_iff.1 hclosed with hempty | hslash
    · exact .inl ⟨of_decide_eq_true hempty, of_decide_eq_true hempty⟩
    · obtain ⟨front, hfront⟩ := List.getLast?_eq_some_iff.1 (beq_iff_eq.1 hslash)
      have hdirectory : directory = String.ofList front ++ "/" := by
        rw [← String.toList_inj, String.toList_append, String.toList_ofList, hfront]
        rfl
      exact .inr ⟨String.ofList front, hdirectory, .inr hdirectory⟩
  · exact .inr ⟨directory, rfl, .inl rfl⟩

theorem isAbsolute_append {text : String} (h : text ≠ "") (other : String) :
    isAbsolute (text ++ other) = isAbsolute text := by
  have hchars : text.toList ≠ [] := fun hnil => h (String.toList_eq_nil_iff.1 hnil)
  unfold isAbsolute
  rw [String.toList_append, List.head?_append_of_ne_nil _ hchars]

/-- A path that starts at the root has nothing before its first slash. -/
theorem mem_pieces_of_isAbsolute {path : String} (h : isAbsolute path = true) :
    "" ∈ Text.pieces '/' path := by
  obtain ⟨rest, hrest⟩ := List.head?_eq_some_iff.1 (beq_iff_eq.1 h)
  unfold Text.pieces
  rw [hrest, Text.splitAll, if_pos rfl]
  exact List.mem_cons_self

end Path

namespace FileTree

/-- A path leads somewhere if it is sound and can be walked. -/
theorem locate_eq_ok_iff {tree : FileTree} {path location : String} :
    tree.locate path = .ok location ↔
      flaw? path = none ∧ tree.walk (tree.start path) (Text.pieces '/' path) = .ok location := by
  unfold locate
  cases flaw? path with
  | none => simp
  | some error => simp

theorem directory?_eq_some_iff {tree : FileTree} {path location : String} :
    tree.directory? path = some location ↔
      tree.locate path = .ok location ∧ tree.entry? location = some .directory := by
  unfold directory?
  cases tree.locate path with
  | error error => simp
  | ok found =>
    dsimp only
    split
    · rename_i hfound
      simp only [Option.some.injEq, Except.ok.injEq]
      exact ⟨fun heq => ⟨heq, heq ▸ hfound⟩, fun h => h.1⟩
    · rename_i hfound
      simp only [reduceCtorEq, Except.ok.injEq, false_iff]
      rintro ⟨rfl, hdirectory⟩
      exact hfound hdirectory

/-- A walk to a directory goes on along what follows in a path. -/
theorem walk_join {tree : FileTree} {root location path : String} (hroot : root ≠ "")
    (hwalk : tree.walk (tree.start root) (Text.pieces '/' root) = .ok location)
    (hpath : Path.isAbsolute path = false) :
    tree.walk (tree.start (Path.join root path)) (Text.pieces '/' (Path.join root path))
      = tree.walk location (Text.pieces '/' path) := by
  have hjoin := Path.join_eq root hpath
  have hstart : tree.start (Path.join root path) = tree.start root := by
    unfold start
    rw [hjoin]
    unfold Path.lead
    split
    · rw [Path.isAbsolute_append hroot]
    · rw [String.append_assoc, Path.isAbsolute_append hroot]
  rw [hstart, hjoin]
  rcases Path.lead_cases root with ⟨_, hempty⟩ | ⟨front, hlead, heq⟩
  · exact absurd hempty hroot
  · rw [hlead, Text.pieces_slash, walk_append]
    rcases heq with rfl | rfl
    · rw [hwalk]
      rfl
    · -- The slash at the end of a directory is a step that stays where it is.
      have hpieces : Text.pieces '/' (front ++ "/") = Text.pieces '/' front ++ [""] := by
        have := Text.pieces_slash front ""
        rwa [String.append_empty] at this
      rw [hpieces, walk_append] at hwalk
      cases hfront : tree.walk (tree.start (front ++ "/")) (Text.pieces '/' front) with
      | error error =>
        rw [hfront] at hwalk
        cases hwalk
      | ok found =>
        rw [hfront] at hwalk
        change tree.walk found [""] = .ok location at hwalk
        have hfound := directory_of_walk (List.cons_ne_nil _ _) hwalk
        have hstay : found = location := by
          rw [walk, step, hfound] at hwalk
          cases hwalk
          rfl
        rw [hstay]
        rfl

/-- The path of a file from a directory on does not start at the root. -/
theorem WellFormed.isAbsolute_file {tree : FileTree} (h : tree.WellFormed) {location file : String}
    {entry : Entry} (hlocation : tree.entry? location = some entry)
    (hfile : file ∈ tree.filesBelow location) : Path.isAbsolute file = false := by
  refine Bool.eq_false_iff.2 fun habsolute => ?_
  have hempty := (h.names_of_file hlocation hfile).1 "" (Path.mem_pieces_of_isAbsolute habsolute)
  exact hempty.filled rfl

/-- **The path of a file below a directory leads to the file.** -/
theorem WellFormed.locate_join {tree : FileTree} (h : tree.WellFormed) {root location file : String}
    (hroot : tree.directory? root = some location) (hfile : file ∈ tree.filesBelow location)
    (hflaw : flaw? (Path.join root file) = none) :
    tree.locate (Path.join root file) = .ok (child location file) := by
  obtain ⟨hlocate, hlocation⟩ := directory?_eq_some_iff.1 hroot
  obtain ⟨hrootFlaw, hwalk⟩ := locate_eq_ok_iff.1 hlocate
  have hfilled : root ≠ "" := by
    rintro rfl
    cases hrootFlaw
  obtain ⟨hnames, hbelow⟩ := h.names_of_file hlocation hfile
  obtain ⟨text, modified, hentry⟩ := mem_filesBelow.1 hfile
  refine locate_eq_ok_iff.2 ⟨hflaw, ?_⟩
  rw [walk_join hfilled hwalk (h.isAbsolute_file hlocation hfile), ← hbelow]
  rw [← hbelow] at hentry
  exact h.walk_below hnames hentry

end FileTree

end FilmCatalog
