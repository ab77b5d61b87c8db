/-
  FilmCatalog.Proofs.Crew.Numbering
  ─────────────────────────────────
  **HOW THE PEOPLE OF A CREW ARE NUMBERED.**

  Three functions number people: the repair after a load, the merge of two
  crews and the reader of the old layout.  All three visit people one after
  the other, put each on the list of names unless it is there, and point the
  role at its place.  So each of them is the same crew made of *appearances*,
  that is, of people with what they contributed:

      ofAppearances directors writers cast

  Main results:

    • `normal_ofAppearances` — such a crew is in normal form,
    • `ofAppearances_of_normal` — and a crew in normal form is made of its own
      appearances, so numbering it again changes nothing.
-/
import Mathlib.Data.List.Induction
import Mathlib.Data.List.Nodup
import Mathlib.Data.List.Perm.Subperm
import FilmCatalog.Merge.Crew
import FilmCatalog.Proofs.Crew.References

namespace FilmCatalog.Crew

/-! ## §1. The list of names. -/

/-- The list of names after some people were added. -/
def register (names : List Person) (people : List Person) : List Person :=
  people.foldl addName names

/-- A name that is added stands on the list, beside those that stood there
before. -/
theorem mem_addName {names : List Person} {person other : Person} :
    other ∈ addName names person ↔ other ∈ names ∨ other = person := by
  unfold addName
  by_cases h : person ∈ names
  · rw [if_pos h]
    constructor
    · exact .inl
    · rintro (hother | rfl)
      · exact hother
      · exact h
  · rw [if_neg h, List.mem_append, List.mem_singleton]

/-- Registering people adds them to the list, and nobody else. -/
theorem mem_register {names people : List Person} {person : Person} :
    person ∈ register names people ↔ person ∈ names ∨ person ∈ people := by
  induction people generalizing names with
  | nil => simp [register]
  | cons head rest ih =>
    show person ∈ register (addName names head) rest ↔ _
    rw [ih, mem_addName, List.mem_cons, or_assoc]

/-- Names are only added at the end. -/
theorem prefix_addName (names : List Person) (person : Person) :
    names <+: addName names person := by
  unfold addName
  split
  · exact List.prefix_refl names
  · exact List.prefix_append _ _

/-- A list that people are registered on is continued at its end. -/
theorem prefix_register (names people : List Person) : names <+: register names people := by
  induction people generalizing names with
  | nil => exact List.prefix_refl names
  | cons head rest ih => exact (prefix_addName names head).trans (ih (addName names head))

/-- Nobody is added twice. -/
theorem nodup_addName {names : List Person} (h : names.Nodup) (person : Person) :
    (addName names person).Nodup := by
  unfold addName
  by_cases hmem : person ∈ names
  · rw [if_pos hmem]
    exact h
  · rw [if_neg hmem]
    refine List.nodup_append.2 ⟨h, List.nodup_singleton person, ?_⟩
    intro a ha b hb heq
    rw [List.mem_singleton] at hb
    exact hmem (hb ▸ heq ▸ ha)

/-- Nobody is registered twice. -/
theorem nodup_register {names : List Person} (h : names.Nodup) (people : List Person) :
    (register names people).Nodup := by
  induction people generalizing names with
  | nil => exact h
  | cons head rest ih => exact ih (nodup_addName h head)

/-- A person keeps its place when names are added. -/
theorem indexOf_extended {names more : List Person} (h : names <+: more) {person : Person}
    (hmem : person ∈ names) : indexOf more person = indexOf names person := by
  obtain ⟨rest, rfl⟩ := h
  unfold indexOf
  rw [List.idxOf_append_of_mem hmem]

/-- The place that a person gets is the one where it stands afterwards. -/
theorem indexOf_addName (names : List Person) (person : Person) :
    indexOf (addName names person) person = indexOf names person := by
  by_cases h : person ∈ names
  · exact indexOf_extended (prefix_addName names person) h
  · unfold indexOf addName
    rw [if_neg h, List.idxOf_append_of_notMem h, List.idxOf_eq_length h, List.idxOf_cons_self]
    rfl

/-- A person keeps the place that it got, whoever is registered after it. -/
theorem indexOf_register (names : List Person) (person : Person) (people : List Person) :
    indexOf (register (addName names person) people) person = indexOf names person := by
  rw [indexOf_extended (prefix_register _ _) (mem_addName.2 (.inr rfl)), indexOf_addName]

/-- People are listed in the order in which they are met first. -/
theorem register_inOrder (people : List Person) :
    (register [] people).Pairwise fun p q => people.idxOf p < people.idxOf q := by
  -- From the right: a further person goes to the end, and behind all others.
  induction people using List.reverseRecOn with
  | nil => exact .nil
  | append_singleton rest last ih =>
    have hstep : register [] (rest ++ [last]) = addName (register [] rest) last := by
      simp [register]
    have hkept : (register [] rest).Pairwise
        fun p q => (rest ++ [last]).idxOf p < (rest ++ [last]).idxOf q := by
      refine List.Pairwise.imp_of_mem ?_ ih
      intro p q hp hq hpq
      have hp' : p ∈ rest := by simpa using mem_register.1 hp
      have hq' : q ∈ rest := by simpa using mem_register.1 hq
      rwa [List.idxOf_append_of_mem hp', List.idxOf_append_of_mem hq']
    rw [hstep]
    unfold addName
    by_cases h : last ∈ register [] rest
    · rw [if_pos h]
      exact hkept
    · rw [if_neg h]
      refine List.pairwise_append.2 ⟨hkept, List.pairwise_singleton _ _, ?_⟩
      intro p hp q hq
      rw [List.mem_singleton] at hq
      subst hq
      have hp' : p ∈ rest := by simpa using mem_register.1 hp
      have hnew : q ∉ rest := fun hmem => h (mem_register.2 (.inr hmem))
      rw [List.idxOf_append_of_mem hp', List.idxOf_append_of_notMem hnew]
      have hlt := List.idxOf_lt_length_of_mem hp'
      omega

/-- A list of people without repetition, in the order in which they are met
first, is the list that they are registered on. -/
theorem register_eq {names people : List Person} (hnames : ∀ person, person ∈ names ↔ person ∈ people)
    (horder : names.Pairwise fun p q => people.idxOf p < people.idxOf q) :
    register [] people = names := by
  have hmem : ∀ person, person ∈ register [] people ↔ person ∈ names := by
    intro person
    rw [mem_register, hnames]
    simp
  have hnodup : names.Nodup := by
    refine horder.imp ?_
    intro p q hpq heq
    rw [heq] at hpq
    exact Nat.lt_irrefl _ hpq
  -- Both lists hold the same people once, and first uses differ, so the order is the same.
  have hperm : (register [] people).Perm names :=
    (List.perm_ext_iff_of_nodup (nodup_register List.nodup_nil people) hnodup).2 hmem
  refine List.Perm.eq_of_pairwise ?_ (register_inOrder people) horder hperm
  intro p q _ _ hpq hqp
  omega

/-! ## §2. Appearances. -/

/-- The role of a person who stands on a list of names. -/
def roleIn (names : List Person) (appearance : Person × Option String) : Role :=
  ⟨indexOf names appearance.1, appearance.2⟩

/-- The people of some roles, with what they contributed. -/
def appearances (names : List Person) (roles : List Role) : List (Person × Option String) :=
  roles.filterMap fun role => (personAt? names role.id).map fun person => (person, role.contribution)

/-- The crew of the appearances in its departments. -/
def ofAppearances (directors writers cast : List (Person × Option String)) : Crew :=
  let names := register [] ((directors ++ writers ++ cast).map (·.1))
  ⟨directors.map (roleIn names), writers.map (roleIn names), cast.map (roleIn names), names⟩

/-- The roles of all departments. -/
def allRoles (c : Crew) : List Role := c.directors ++ c.writers ++ c.cast

/-- The people of all roles, department by department. -/
def people (c : Crew) : List Person := (appearances c.names c.allRoles).map (·.1)

/-- Every role points at somebody. -/
def Attached (c : Crew) : Prop := ∀ role ∈ c.allRoles, 0 ≤ role.id ∧ role.id < c.names.length

theorem mem_allRoles {c : Crew} {role : Role} :
    role ∈ c.allRoles ↔ ∃ department, role ∈ c.roles department := by
  constructor
  · intro h
    simp only [allRoles, List.mem_append] at h
    rcases h with (h | h) | h
    · exact ⟨.directors, h⟩
    · exact ⟨.writers, h⟩
    · exact ⟨.cast, h⟩
  · rintro ⟨department, h⟩
    cases department <;> simp_all [allRoles, roles]

/-- The roles of each department point at somebody. -/
theorem Attached.roles {c : Crew} (h : c.Attached) (department : Department) :
    ∀ role ∈ c.roles department, 0 ≤ role.id ∧ role.id < c.names.length :=
  fun role hrole => h role (mem_allRoles.2 ⟨department, hrole⟩)

/-- A role points at the person whose number it has. -/
theorem personAt?_eq_some_iff {names : List Person} {id : Int} {person : Person} :
    personAt? names id = some person ↔ 0 ≤ id ∧ names[id.toNat]? = some person := by
  unfold personAt?
  by_cases h : 0 ≤ id
  · rw [if_pos h]
    exact ⟨fun hget => ⟨h, hget⟩, fun hget => hget.2⟩
  · rw [if_neg h]
    constructor
    · intro hget
      cases hget
    · exact fun hget => absurd hget.1 h

/-- A role points at somebody if its number is on the list. -/
theorem isSome_personAt?_iff {names : List Person} {id : Int} :
    (personAt? names id).isSome ↔ 0 ≤ id ∧ id < names.length := by
  unfold personAt?
  by_cases h : 0 ≤ id
  · rw [if_pos h, isSome_getElem?]
    omega
  · rw [if_neg h]
    simp [h]

/-- The number of a listed person leads to that person. -/
theorem personAt?_indexOf {names : List Person} {person : Person} (h : person ∈ names) :
    personAt? names (indexOf names person) = some person := by
  refine personAt?_eq_some_iff.2 ⟨Int.natCast_nonneg _, ?_⟩
  show names[(names.idxOf person : Int).toNat]? = some person
  rw [Int.toNat_natCast]
  exact List.getElem?_idxOf h

/-- In a list without repetition an index is the place of its person. -/
theorem indexOf_of_personAt? {names : List Person} (hnodup : names.Nodup) {id : Int}
    {person : Person} (h : personAt? names id = some person) : indexOf names person = id := by
  obtain ⟨hid, hget⟩ := personAt?_eq_some_iff.1 h
  obtain ⟨hlt, rfl⟩ := List.getElem?_eq_some_iff.1 hget
  unfold indexOf
  rw [hnodup.idxOf_getElem id.toNat hlt, Int.toNat_of_nonneg hid]

theorem appearances_append (names : List Person) (roles others : List Role) :
    appearances names (roles ++ others) = appearances names roles ++ appearances names others :=
  List.filterMap_append

theorem appearances_cons {names : List Person} {role : Role} {person : Person}
    (h : personAt? names role.id = some person) (rest : List Role) :
    appearances names (role :: rest)
      = (person, role.contribution) :: appearances names rest := by
  unfold appearances
  rw [List.filterMap_cons, h, Option.map_some]

theorem appearances_cons_of_none {names : List Person} {role : Role}
    (h : personAt? names role.id = none) (rest : List Role) :
    appearances names (role :: rest) = appearances names rest := by
  unfold appearances
  rw [List.filterMap_cons, h, Option.map_none]

/-- Whoever appears is on the list of names. -/
theorem mem_names_of_mem_appearances {names : List Person} {roles : List Role}
    {appearance : Person × Option String} (h : appearance ∈ appearances names roles) :
    appearance.1 ∈ names := by
  obtain ⟨role, _, hrole⟩ := List.mem_filterMap.1 h
  obtain ⟨person, hperson, rfl⟩ := Option.map_eq_some_iff.1 hrole
  exact List.mem_of_getElem? (personAt?_eq_some_iff.1 hperson).2

/-- Roles made of appearances lead back to them. -/
theorem appearances_map_roleIn {names : List Person} {list : List (Person × Option String)}
    (h : ∀ appearance ∈ list, appearance.1 ∈ names) :
    appearances names (list.map (roleIn names)) = list := by
  induction list with
  | nil => rfl
  | cons head rest ih =>
    obtain ⟨hhead, hrest⟩ := List.forall_mem_cons.1 h
    have hperson : personAt? names (roleIn names head).id = some head.1 := personAt?_indexOf hhead
    rw [List.map_cons, appearances_cons hperson, ih hrest]
    rfl

/-- Appearances lead back to the roles they come from. -/
theorem map_roleIn_appearances {names : List Person} (hnodup : names.Nodup) {roles : List Role}
    (h : ∀ role ∈ roles, 0 ≤ role.id ∧ role.id < names.length) :
    (appearances names roles).map (roleIn names) = roles := by
  induction roles with
  | nil => rfl
  | cons role rest ih =>
    obtain ⟨hrole, hrest⟩ := List.forall_mem_cons.1 h
    obtain ⟨person, hperson⟩ := Option.isSome_iff_exists.1 (isSome_personAt?_iff.2 hrole)
    rw [appearances_cons hperson, List.map_cons, ih hrest]
    unfold roleIn
    rw [indexOf_of_personAt? hnodup hperson]

/-! ## §3. The normal form. -/

/-- A name that stands for nobody. -/
def isPlaceholder (name : String) : Prop := name = "" ∨ name = "N/A"

/-- **The normal form of a crew.**  Roles point at somebody; names do not
repeat, are all used, and stand in the order of their first use; people have
canonical references and a name. -/
structure Normal (c : Crew) : Prop where
  attached : c.Attached
  nodup : c.names.Nodup
  used : ∀ person ∈ c.names, person ∈ c.people
  inOrder : c.names.Pairwise fun p q => c.people.idxOf p < c.people.idxOf q
  canonical : ∀ person ∈ c.names, person.canonical = person
  named : ∀ person ∈ c.names, ¬ isPlaceholder person.name

/-- The references of every person ascend by their keys, so no key comes twice. -/
theorem Normal.pairwise_keys {c : Crew} (h : c.Normal) {person : Person}
    (hperson : person ∈ c.names) : (person.refs.map Person.keyOf).Pairwise (· < ·) :=
  (Person.canonical_eq_self_iff.1 (h.canonical person hperson)).1

theorem normal_empty : Normal empty where
  attached := by intro role hrole; cases hrole
  nodup := .nil
  used := by intro person hperson; cases hperson
  inOrder := .nil
  canonical := by intro person hperson; cases hperson
  named := by intro person hperson; cases hperson

/-- The people of a crew that is made of appearances are those who appear. -/
theorem people_ofAppearances (directors writers cast : List (Person × Option String)) :
    (ofAppearances directors writers cast).people
      = (directors ++ writers ++ cast).map (·.1) := by
  have hroles : (ofAppearances directors writers cast).allRoles
      = (directors ++ writers ++ cast).map
          (roleIn (register [] ((directors ++ writers ++ cast).map (·.1)))) := by
    simp only [allRoles, ofAppearances, List.map_append]
  unfold people
  rw [hroles]
  show (appearances (register [] ((directors ++ writers ++ cast).map (·.1))) _).map _ = _
  rw [appearances_map_roleIn]
  intro appearance happearance
  exact mem_register.2 (.inr (List.mem_map_of_mem happearance))

/-- The names of a crew that is made of appearances are the people who appear. -/
theorem mem_names_ofAppearances {directors writers cast : List (Person × Option String)}
    {person : Person} : person ∈ (ofAppearances directors writers cast).names
      ↔ person ∈ (directors ++ writers ++ cast).map (·.1) := by
  show person ∈ register [] _ ↔ _
  rw [mem_register]
  simp

/-- The roles of appearances point at those who appear. -/
theorem attached_ofAppearances (directors writers cast : List (Person × Option String)) :
    (ofAppearances directors writers cast).Attached := by
  intro role hrole
  simp only [allRoles, ofAppearances, ← List.map_append] at hrole
  obtain ⟨appearance, happearance, rfl⟩ := List.mem_map.1 hrole
  refine isSome_personAt?_iff.1 (Option.isSome_iff_exists.2 ⟨appearance.1, ?_⟩)
  exact personAt?_indexOf (mem_names_ofAppearances.2 (List.mem_map_of_mem happearance))

/-- Every department of a crew that is made of appearances leads back to its
own. -/
theorem appearances_ofAppearances (list : Department → List (Person × Option String))
    (department : Department) :
    appearances (ofAppearances (list .directors) (list .writers) (list .cast)).names
        ((ofAppearances (list .directors) (list .writers) (list .cast)).roles department)
      = list department := by
  have hmem : ∀ appearance ∈ list department,
      appearance.1 ∈ (ofAppearances (list .directors) (list .writers) (list .cast)).names := by
    intro appearance happearance
    refine mem_names_ofAppearances.2 (List.mem_map_of_mem ?_)
    cases department <;> simp [happearance]
  cases department with
  | directors => exact appearances_map_roleIn hmem
  | writers => exact appearances_map_roleIn hmem
  | cast => exact appearances_map_roleIn hmem

/-- **Numbering gives the normal form** to people who are fit for it. -/
theorem normal_ofAppearances {directors writers cast : List (Person × Option String)}
    (h : ∀ person ∈ (directors ++ writers ++ cast).map (·.1),
      person.canonical = person ∧ ¬ isPlaceholder person.name) :
    (ofAppearances directors writers cast).Normal := by
  have hpeople := people_ofAppearances directors writers cast
  constructor
  case attached => exact attached_ofAppearances directors writers cast
  case nodup => exact nodup_register List.nodup_nil _
  case used =>
    intro person hperson
    rw [hpeople]
    exact mem_names_ofAppearances.1 hperson
  case inOrder =>
    rw [hpeople]
    exact register_inOrder _
  case canonical => exact fun person hperson => (h person (mem_names_ofAppearances.1 hperson)).1
  case named => exact fun person hperson => (h person (mem_names_ofAppearances.1 hperson)).2

theorem mem_names_of_mem_people {c : Crew} {person : Person} (h : person ∈ c.people) :
    person ∈ c.names := by
  obtain ⟨appearance, happearance, rfl⟩ := List.mem_map.1 h
  exact mem_names_of_mem_appearances happearance

/-- **A crew in normal form is made of its own appearances.** -/
theorem ofAppearances_of_normal {c : Crew} (h : c.Normal) :
    ofAppearances (appearances c.names c.directors) (appearances c.names c.writers)
      (appearances c.names c.cast) = c := by
  have hpeople : (appearances c.names c.directors ++ appearances c.names c.writers
      ++ appearances c.names c.cast).map (·.1) = c.people := by
    unfold people allRoles
    rw [appearances_append, appearances_append]
  -- The names are those that registering the people would give.
  have hnames : register [] c.people = c.names :=
    register_eq (fun person => ⟨h.used person, mem_names_of_mem_people⟩) h.inOrder
  have hback : ∀ department, (appearances c.names (c.roles department)).map (roleIn c.names)
      = c.roles department :=
    fun department => map_roleIn_appearances h.nodup (h.attached.roles department)
  have hdirectors : (appearances c.names c.directors).map (roleIn c.names) = c.directors :=
    hback .directors
  have hwriters : (appearances c.names c.writers).map (roleIn c.names) = c.writers := hback .writers
  have hcast : (appearances c.names c.cast).map (roleIn c.names) = c.cast := hback .cast
  unfold ofAppearances
  rw [hpeople, hnames]
  simp only [hdirectors, hwriters, hcast]

/-- No more people are listed than there are roles. -/
theorem length_names_le {c : Crew} (h : c.Normal) : c.names.length ≤ c.allRoles.length := by
  have hsubset : c.names ⊆ c.people := fun person hperson => h.used person hperson
  calc c.names.length ≤ c.people.length := (List.subperm_of_subset h.nodup hsubset).length_le
    _ = (appearances c.names c.allRoles).length := List.length_map _
    _ ≤ c.allRoles.length := List.length_filterMap_le _ _

/-! ## §4. The numbering functions make crews of appearances. -/

/-- **Credits are numbered by the list that all their people are registered
on**, though each is numbered before the next one is read. -/
theorem numbered_eq (used : List Person) (credits : List Credit) :
    numbered used credits
      = (credits.map fun credit => roleIn (register used (credits.map Credit.person))
            (credit.person, credit.contribution),
          register used (credits.map Credit.person)) := by
  induction credits generalizing used with
  | nil => rfl
  | cons credit rest ih =>
    rw [numbered, ih]
    simp only [List.map_cons]
    -- The role was numbered before the others were registered.
    show (Role.mk (indexOf used credit.person) credit.contribution :: _, _) = _
    rw [← indexOf_register used credit.person (rest.map Credit.person)]
    rfl

/-- A role as the numbering leaves it: it points at the place of its person on
the new list of names, and stays as it is if it points at nobody. -/
def repointed (known names : List Person) (role : Role) : Role :=
  match personAt? known role.id with
  | some person => { role with id := indexOf names person }
  | none => role

theorem repointed_of_some {known : List Person} {role : Role} {person : Person}
    (h : personAt? known role.id = some person) (names : List Person) :
    repointed known names role = roleIn names (person, role.contribution) := by
  unfold repointed
  rw [h]
  rfl

theorem repointed_of_none {known : List Person} {role : Role} (h : personAt? known role.id = none)
    (names : List Person) : repointed known names role = role := by
  unfold repointed
  rw [h]

/-- The numbering does not touch a contribution. -/
theorem contribution_repointed (known names : List Person) (role : Role) :
    (repointed known names role).contribution = role.contribution := by
  unfold repointed
  split <;> rfl

/-- **What the numbering does to a list of roles**, dangling ones included. -/
theorem renumber_eq_repointed (known used : List Person) (roles : List Role) :
    renumber known used roles
      = (roles.map (repointed known (register used ((appearances known roles).map (·.1)))),
          register used ((appearances known roles).map (·.1))) := by
  induction roles generalizing used with
  | nil => rfl
  | cons role rest ih =>
    rw [renumber, List.map_cons]
    cases hperson : personAt? known role.id with
    | none => rw [appearances_cons_of_none hperson, repointed_of_none hperson, ih]
    | some person =>
      -- The role was numbered before the others were registered.
      rw [appearances_cons hperson, repointed_of_some hperson]
      simp only [ih (addName used person), List.map_cons]
      rw [← indexOf_register used person ((appearances known rest).map (·.1))]
      rfl

/-- Without dangling roles, the new roles are those of the appearances. -/
theorem map_repointed {known : List Person} {roles : List Role}
    (h : ∀ role ∈ roles, 0 ≤ role.id ∧ role.id < known.length) (names : List Person) :
    roles.map (repointed known names) = (appearances known roles).map (roleIn names) := by
  induction roles with
  | nil => rfl
  | cons role rest ih =>
    obtain ⟨hrole, hrest⟩ := List.forall_mem_cons.1 h
    obtain ⟨person, hperson⟩ := Option.isSome_iff_exists.1 (isSome_personAt?_iff.2 hrole)
    rw [appearances_cons hperson, List.map_cons, List.map_cons, ih hrest, repointed_of_some hperson]

/-- The people of a crew, in canonical form. -/
def canonicalNames (c : Crew) : List Person := c.names.map Person.canonical

/-- The departments are numbered one after the other, each from the names that
the earlier ones have left. -/
theorem renumbered_eq_lists (c : Crew) :
    c.renumbered =
      (let met := fun roles => (appearances c.canonicalNames roles).map (·.1)
       let afterDirectors := register [] (met c.directors)
       let afterWriters := register afterDirectors (met c.writers)
       let afterCast := register afterWriters (met c.cast)
       ⟨c.directors.map (repointed c.canonicalNames afterDirectors),
        c.writers.map (repointed c.canonicalNames afterWriters),
        c.cast.map (repointed c.canonicalNames afterCast), afterCast⟩) := by
  unfold renumbered
  simp only [renumber_eq_repointed]
  rfl

/-- Three lists that are numbered one after the other share the names of all
three. -/
theorem register_append (names people others : List Person) :
    register names (people ++ others) = register (register names people) others :=
  List.foldl_append

/-- An earlier list keeps its roles when further people are registered. -/
theorem map_roleIn_extended {names more : List Person} (h : names <+: more)
    {list : List (Person × Option String)} (hlist : ∀ appearance ∈ list, appearance.1 ∈ names) :
    list.map (roleIn more) = list.map (roleIn names) := by
  refine List.map_congr_left fun appearance happearance => ?_
  unfold roleIn
  rw [indexOf_extended h (hlist appearance happearance)]

/-- The step from three lists, numbered in turn, to a crew of appearances. -/
theorem ofAppearances_eq (directors writers cast : List (Person × Option String)) :
    ofAppearances directors writers cast =
      (let afterDirectors := register [] (directors.map (·.1))
       let afterWriters := register afterDirectors (writers.map (·.1))
       let afterCast := register afterWriters (cast.map (·.1))
       ⟨directors.map (roleIn afterDirectors), writers.map (roleIn afterWriters),
        cast.map (roleIn afterCast), afterCast⟩) := by
  unfold ofAppearances
  rw [List.map_append, List.map_append, register_append, register_append]
  simp only
  -- Names of later departments come behind, so the numbers of earlier ones stay.
  congr 1
  · refine map_roleIn_extended ((prefix_register _ _).trans (prefix_register _ _)) ?_
    exact fun appearance h => mem_register.2 (.inr (List.mem_map_of_mem h))
  · refine map_roleIn_extended (prefix_register _ _) ?_
    exact fun appearance h => mem_register.2 (.inr (List.mem_map_of_mem h))

/-- The appearance that a credit stands for. -/
def creditAppearance (credit : Credit) : Person × Option String :=
  (credit.person, credit.contribution)

/-- **The crew of some credits is a crew of appearances.** -/
theorem ofCredits_eq (directors writers cast : List Credit) :
    ofCredits directors writers cast
      = ofAppearances (directors.map creditAppearance) (writers.map creditAppearance)
          (cast.map creditAppearance) := by
  have hpeople : ∀ list : List Credit, (list.map creditAppearance).map (·.1)
      = list.map Credit.person := by
    intro list
    rw [List.map_map]
    rfl
  rw [ofAppearances_eq]
  unfold ofCredits
  simp only [numbered_eq, hpeople, List.map_map]
  rfl

/-- **The repaired numbering is a crew of appearances**, of people in
canonical form. -/
theorem renumbered_eq {c : Crew} (h : c.Attached) :
    c.renumbered
      = ofAppearances (appearances (c.names.map Person.canonical) c.directors)
          (appearances (c.names.map Person.canonical) c.writers)
          (appearances (c.names.map Person.canonical) c.cast) := by
  have hroles : ∀ department names, (c.roles department).map (repointed c.canonicalNames names)
      = (appearances c.canonicalNames (c.roles department)).map (roleIn names) := by
    intro department names
    apply map_repointed
    intro role hrole
    show 0 ≤ role.id ∧ role.id < (c.names.map Person.canonical).length
    rw [List.length_map]
    exact h.roles department role hrole
  have hdirectors := hroles .directors
  have hwriters := hroles .writers
  have hcast := hroles .cast
  simp only [roles] at hdirectors hwriters hcast
  -- Department by department, as each one starts from the names used so far.
  rw [ofAppearances_eq, renumbered_eq_lists]
  simp only [hdirectors, hwriters, hcast]
  rfl

end FilmCatalog.Crew
