/-
  FilmCatalog.Proofs.Crew.Renumbering
  ───────────────────────────────────
  **WHAT A RENUMBERING DOES TO ANY CREW.**

  The repair points roles at new places before it looks whether anything has
  changed, and then it looks at the names alone.  This is enough: where the
  names come out as they were, they are canonical and do not repeat, so every
  role has been pointed at the place where it pointed before
  (`renumbered_eq_self`).

  Dangling roles keep their number.  The new list of names is never longer
  than the old one, so they stay dangling, whoever is dropped or shared
  (`personAt?_renumbered`).  A second repair meets the same people in the same
  order, and changes nothing.
-/
import FilmCatalog.Proofs.Crew.Agreement

namespace FilmCatalog.Crew

/-! ## §1. The new roles and the new names. -/

/-- Roles whose people are listed keep their places when names are added. -/
theorem map_repointed_extended {known names more : List Person} (h : names <+: more)
    {roles : List Role} (hroles : ∀ appearance ∈ appearances known roles, appearance.1 ∈ names) :
    roles.map (repointed known more) = roles.map (repointed known names) := by
  refine List.map_congr_left fun role hrole => ?_
  cases hperson : personAt? known role.id with
  | none => rw [repointed_of_none hperson, repointed_of_none hperson]
  | some person =>
    have happears : (person, role.contribution) ∈ appearances known roles :=
      List.mem_filterMap.2 ⟨role, hrole, by rw [hperson]; rfl⟩
    rw [repointed_of_some hperson, repointed_of_some hperson]
    unfold roleIn
    rw [indexOf_extended h (hroles _ happears)]

/-- The new names are those of the people who are met, in this order. -/
theorem names_renumbered (c : Crew) :
    c.renumbered.names = register [] ((appearances c.canonicalNames c.allRoles).map (·.1)) := by
  unfold allRoles
  rw [renumbered_eq_lists, appearances_append, appearances_append, List.map_append, List.map_append,
    register_append, register_append]

/-- Later departments only add names, so the final list gives every role the
place that it got when it was met. -/
theorem roles_renumbered (c : Crew) (department : Department) :
    c.renumbered.roles department
      = (c.roles department).map (repointed c.canonicalNames c.renumbered.names) := by
  have hmet : ∀ (used : List Person) (roles : List Role),
      ∀ appearance ∈ appearances c.canonicalNames roles,
        appearance.1 ∈ register used ((appearances c.canonicalNames roles).map (·.1)) :=
    fun used roles appearance h => mem_register.2 (.inr (List.mem_map_of_mem h))
  rw [renumbered_eq_lists]
  cases department with
  | directors =>
    exact (map_repointed_extended ((prefix_register _ _).trans (prefix_register _ _))
      (hmet _ _)).symm
  | writers => exact (map_repointed_extended (prefix_register _ _) (hmet _ _)).symm
  | cast => rfl

theorem allRoles_renumbered (c : Crew) :
    c.renumbered.allRoles = c.allRoles.map (repointed c.canonicalNames c.renumbered.names) := by
  show c.renumbered.roles .directors ++ c.renumbered.roles .writers ++ c.renumbered.roles .cast = _
  rw [roles_renumbered, roles_renumbered, roles_renumbered, ← List.map_append, ← List.map_append]
  rfl

theorem mem_canonicalNames_of_mem_renumbered {c : Crew} {person : Person}
    (h : person ∈ c.renumbered.names) : person ∈ c.canonicalNames := by
  rw [names_renumbered, mem_register] at h
  rcases h with h | h
  · cases h
  · obtain ⟨appearance, happearance, rfl⟩ := List.mem_map.1 h
    exact mem_names_of_mem_appearances happearance

theorem nodup_renumbered (c : Crew) : c.renumbered.names.Nodup := by
  rw [names_renumbered]
  exact nodup_register List.nodup_nil _

/-- People in canonical form are listed, so writing them in canonical form does
not change the list. -/
theorem canonicalNames_renumbered (c : Crew) : c.renumbered.canonicalNames = c.renumbered.names := by
  refine (List.map_congr_left ?_).trans (List.map_id _)
  intro person hperson
  obtain ⟨before, _, rfl⟩ := List.mem_map.1 (mem_canonicalNames_of_mem_renumbered hperson)
  exact before.canonical_canonical

/-- The list of names does not grow. -/
theorem length_names_renumbered_le (c : Crew) :
    c.renumbered.names.length ≤ c.canonicalNames.length := by
  apply List.Subperm.length_le
  apply List.subperm_of_subset c.nodup_renumbered
  intro person hperson
  exact mem_canonicalNames_of_mem_renumbered hperson

/-! ## §2. Who a role points at. -/

/-- **A renumbered role points at whom it pointed before**, and at nobody if it
pointed at nobody. -/
theorem personAt?_renumbered {c : Crew} {role : Role} (h : role ∈ c.allRoles) :
    personAt? c.renumbered.names (repointed c.canonicalNames c.renumbered.names role).id
      = personAt? c.canonicalNames role.id := by
  cases hperson : personAt? c.canonicalNames role.id with
  | some person =>
    -- Whoever is met is put on the list, and found there.
    rw [repointed_of_some hperson]
    apply personAt?_indexOf
    rw [names_renumbered, mem_register]
    right
    apply List.mem_map.2
    exact ⟨(person, role.contribution), List.mem_filterMap.2 ⟨role, h, by rw [hperson]; rfl⟩, rfl⟩
  | none =>
    -- The number is out of range for the old list, and the new one is not longer.
    rw [repointed_of_none hperson]
    have hrange : ¬ (personAt? c.canonicalNames role.id).isSome := by rw [hperson]; simp
    rw [isSome_personAt?_iff] at hrange
    have hlength := c.length_names_renumbered_le
    cases hnew : personAt? c.renumbered.names role.id with
    | none => rfl
    | some person =>
      have hsome := isSome_personAt?_iff.1 (Option.isSome_iff_exists.2 ⟨person, hnew⟩)
      omega

theorem appearances_renumbered (c : Crew) :
    appearances c.renumbered.names c.renumbered.allRoles = appearances c.canonicalNames c.allRoles := by
  rw [allRoles_renumbered]
  unfold appearances
  rw [List.filterMap_map]
  apply List.filterMap_congr
  intro role hrole
  show (personAt? c.renumbered.names (repointed c.canonicalNames c.renumbered.names role).id).map
    (fun person => (person, (repointed c.canonicalNames c.renumbered.names role).contribution)) = _
  rw [personAt?_renumbered hrole, contribution_repointed]

/-! ## §3. Names that come out as they were. -/

/-- On a list without repetition, roles point at the first place of their
person. -/
theorem repointed_self {names : List Person} (h : names.Nodup) (role : Role) :
    repointed names names role = role := by
  cases hperson : personAt? names role.id with
  | none => exact repointed_of_none hperson names
  | some person =>
    rw [repointed_of_some hperson]
    unfold roleIn
    rw [indexOf_of_personAt? h hperson]

theorem eq_of_roles {c other : Crew}
    (hroles : ∀ department, c.roles department = other.roles department)
    (hnames : c.names = other.names) : c = other := by
  obtain ⟨directors, writers, cast, names⟩ := c
  obtain rfl : directors = other.directors := hroles .directors
  obtain rfl : writers = other.writers := hroles .writers
  obtain rfl : cast = other.cast := hroles .cast
  obtain rfl : names = other.names := hnames
  rfl

/-- **The names decide whether a crew changes.** -/
theorem renumbered_eq_self {c : Crew} (h : c.renumbered.names = c.names) : c.renumbered = c := by
  -- The names are a list that a numbering gives, so they are canonical and do not repeat.
  have hcanonical : c.canonicalNames = c.names := by
    have hsame := c.canonicalNames_renumbered
    unfold canonicalNames at hsame
    rw [h] at hsame
    exact hsame
  have hnodup : c.names.Nodup := h ▸ c.nodup_renumbered
  apply eq_of_roles
  · intro department
    rw [roles_renumbered, hcanonical, h]
    apply List.map_id''
    intro role
    exact repointed_self hnodup role
  · exact h

/-- A second numbering meets the same people in the same order. -/
theorem names_renumbered_renumbered (c : Crew) :
    c.renumbered.renumbered.names = c.renumbered.names := by
  rw [names_renumbered, canonicalNames_renumbered, appearances_renumbered, ← names_renumbered]

/-! ## §4. The repair. -/

theorem result_canonicalize_iff (c : Crew) :
    c.canonicalize.result = .ok .unchanged ↔ c.renumbered.names = c.names := by
  unfold canonicalize
  dsimp only
  split
  · rename_i hnames
    exact ⟨fun _ => hnames, fun _ => rfl⟩
  · rename_i hnames
    constructor
    · intro hresult
      cases hresult
    · intro hsame
      exact absurd hsame hnames

/-- A role that points at nobody on a list of names. -/
def Dangles (names : List Person) (role : Role) : Prop := personAt? names role.id = none

/-- **The repair tells exactly whether it changed the crew**, and there is
nothing left to change after it.  Roles are kept one by one, with what was
contributed; a role is dangling afterwards if and only if it was before, and
otherwise it points at the same person, in canonical form. -/
theorem canonicalize_exact (c : Crew) :
    (c.canonicalize.result = .ok .unchanged ↔ c.canonicalize.value = c) ∧
    (∀ department, List.Forall₂
      (fun old new => new.contribution = old.contribution ∧
        (Dangles c.canonicalize.value.names new ↔ Dangles c.names old) ∧
        personAt? c.canonicalize.value.names new.id
          = (personAt? c.names old.id).map Person.canonical)
      (c.roles department) (c.canonicalize.value.roles department)) ∧
    c.canonicalize.value.canonicalize.result = .ok .unchanged := by
  rw [value_canonicalize]
  refine ⟨?_, ?_, ?_⟩
  · rw [result_canonicalize_iff]
    constructor
    · exact renumbered_eq_self
    · intro hsame
      rw [hsame]
  · intro department
    -- The new roles are made of the old ones one by one.
    rw [roles_renumbered, List.forall₂_map_right_iff, List.forall₂_same]
    intro role hrole
    have hperson := personAt?_renumbered (mem_allRoles.2 ⟨department, hrole⟩)
    unfold canonicalNames at hperson ⊢
    rw [personAt?_map] at hperson
    refine ⟨contribution_repointed _ _ role, ?_, hperson⟩
    unfold Dangles
    rw [hperson, Option.map_eq_none_iff]
  · rw [result_canonicalize_iff]
    exact c.names_renumbered_renumbered

end FilmCatalog.Crew
