/-
  FilmCatalog.Proofs.Crew.Loading
  ───────────────────────────────
  **EVERY LOADED CREW IS IN NORMAL FORM.**

  Both layouts arrive at roles that point at somebody: today's layout is
  checked for it, the old one is built so.  Then placeholders are removed, one
  person at a time, which closes a gap in the numbering and so keeps every
  role attached; last the names are numbered anew, which gives the normal
  form.

  Main result: `ensures_loadFromRecord`.
-/
import FilmCatalog.Crew.Load
import FilmCatalog.Proofs.Crew.Numbering
import FilmCatalog.Proofs.Loading

namespace FilmCatalog.Crew

open Loaded

/-! ## §1. Roles by department. -/

/-- New roles of a department, and new names, leave the other departments
alone. -/
theorem roles_setRoles (c : Crew) (roles : List Role) (names : List Person)
    (department other : Department) :
    ({ c.setRoles roles department with names } : Crew).roles other
      = if department = other then roles else c.roles other := by
  cases department <;> cases other <;> rfl

/-- No role is dangling exactly if every role points at somebody. -/
theorem dangling?_eq_none_iff {c : Crew} : c.dangling? = none ↔ c.Attached := by
  have hroles : ∀ department, firstDangling? c.names (c.roles department) = none
      ↔ ∀ role ∈ c.roles department, 0 ≤ role.id ∧ role.id < c.names.length := by
    intro department
    unfold firstDangling?
    rw [List.find?_eq_none]
    refine forall₂_congr fun role _ => ?_
    rw [← isSome_personAt?_iff]
    cases personAt? c.names role.id <;> simp
  have hall : ∀ department : Department, department ∈ Department.all := by
    intro department
    cases department <;> decide
  unfold dangling?
  rw [List.findSome?_eq_none_iff]
  constructor
  · intro h role hrole
    obtain ⟨department, hrole⟩ := mem_allRoles.1 hrole
    have hnone := h department (hall department)
    rw [Option.map_eq_none_iff] at hnone
    exact (hroles department).1 hnone role hrole
  · intro h department _
    rw [Option.map_eq_none_iff]
    exact (hroles department).2 fun role hrole => h role (mem_allRoles.2 ⟨department, hrole⟩)

/-- What passes the check has no dangling roles. -/
theorem ensures_checkRoles {P : Crew → Prop} {c : Crew} (h : P c) :
    c.checkRoles.Ensures fun c => P c ∧ c.Attached := by
  unfold checkRoles validate
  cases hdangling : c.dangling? with
  | none => exact ensures_done ⟨h, dangling?_eq_none_iff.1 hdangling⟩
  | some found => exact ensures_failed

/-! ## §2. Placeholders go. -/

/-- Roles that are left after a removal point one place lower, if they stood
behind it. -/
theorem mem_forgetId {id : Int} {roles : List Role} {role : Role} (h : role ∈ forgetId id roles) :
    ∃ before ∈ roles, before.id ≠ id
      ∧ role.id = if id < before.id then before.id - 1 else before.id := by
  unfold forgetId at h
  obtain ⟨before, hbefore, rfl⟩ := List.mem_map.1 h
  obtain ⟨hmem, hne⟩ := List.mem_filter.1 hbefore
  refine ⟨before, hmem, of_decide_eq_true hne, ?_⟩
  split <;> rfl

theorem roles_removePerson (c : Crew) (index : Nat) (department : Department) :
    (c.removePerson index).roles department = forgetId index (c.roles department) := by
  cases department <;> rfl

/-- **The gap closes**: whoever is removed, the other roles stay attached. -/
theorem attached_removePerson {c : Crew} {index : Nat} (hindex : index < c.names.length)
    (h : c.Attached) : (c.removePerson index).Attached := by
  intro role hrole
  obtain ⟨department, hrole⟩ := mem_allRoles.1 hrole
  rw [roles_removePerson] at hrole
  obtain ⟨before, hbefore, hne, hid⟩ := mem_forgetId hrole
  have hbound := h.roles department before hbefore
  have hlength : (c.removePerson index).names.length = c.names.length - 1 :=
    List.length_eraseIdx_of_lt hindex
  -- Whoever stood behind the gap moves up by one.
  rw [hid, hlength]
  split <;> omega

/-- What is kept by the removal of one person who is meant is kept by all of
them. -/
theorem removeNamed_induction {P : Crew → Prop} (test : String → Bool)
    (hstep : ∀ c index (hindex : index < c.names.length), test (c.names[index]).name = true →
      P c → P (c.removePerson index)) {c : Crew} (h : P c) : P (c.removeNamed test) := by
  -- The removal stops, or drops the person it found and goes on with fewer names.
  induction c using removeNamed.induct test with
  | case1 c hfound =>
    rw [removeNamed]
    split
    · exact h
    · rename_i hother
      rw [hfound] at hother
      cases hother
  | case2 c index hfound ih =>
    obtain ⟨hindex, hnamed, _⟩ := List.findIdx?_eq_some_iff_getElem.1 hfound
    rw [removeNamed]
    split
    · rename_i hother
      rw [hfound] at hother
      cases hother
    · rename_i other hother
      rw [hfound] at hother
      cases hother
      exact ih (hstep c index hindex hnamed h)

/-- Everybody who is left passes the test. -/
theorem removeNamed_passes (test : String → Bool) (c : Crew) :
    ∀ person ∈ (c.removeNamed test).names, test person.name = false := by
  induction c using removeNamed.induct test with
  | case1 c hfound =>
    rw [removeNamed]
    split
    · intro person hperson
      exact List.findIdx?_eq_none_iff.1 hfound person hperson
    · rename_i hother
      rw [hfound] at hother
      cases hother
  | case2 c index hfound ih =>
    rw [removeNamed]
    split
    · rename_i hother
      rw [hfound] at hother
      cases hother
    · rename_i other hother
      rw [hfound] at hother
      cases hother
      exact ih

/-- A removal with a note keeps what every single removal keeps. -/
theorem ensures_removeNoted {P : Crew → Prop} (test : String → Bool) (note : String)
    (hstep : ∀ c index, index < c.names.length → P c → P (c.removePerson index)) {c : Crew}
    (h : P c) :
    (c.removeNoted test note).Ensures
      fun c => P c ∧ ∀ person ∈ c.names, test person.name = false := by
  unfold removeNoted
  by_cases hany : (c.names.any fun person => test person.name) = true
  · rw [if_pos hany]
    have hkept := removeNamed_induction test (fun c index hindex _ => hstep c index hindex) h
    exact ensures_repaired ⟨hkept, removeNamed_passes test c⟩
  · rw [if_neg hany]
    refine ensures_done ⟨h, fun person hperson => ?_⟩
    rw [Bool.not_eq_true, List.any_eq_false] at hany
    exact Bool.eq_false_iff.2 (hany person hperson)

/-- **No placeholder is left**, and what one removal keeps is kept. -/
theorem ensures_removePlaceholders {P : Crew → Prop}
    (hstep : ∀ c index, index < c.names.length → P c → P (c.removePerson index)) {c : Crew}
    (h : P c) :
    c.removePlaceholders.Ensures
      fun c => P c ∧ ∀ person ∈ c.names, ¬ isPlaceholder person.name := by
  refine ensures_andThen (ensures_removeNoted _ _ hstep h) fun c hc => ?_
  -- The second round keeps what the first one reached, as it only removes people.
  have hround : ∀ c index, index < c.names.length →
      (P c ∧ ∀ person ∈ c.names, decide (person.name = "N/A") = false) →
      P (c.removePerson index)
        ∧ ∀ person ∈ (c.removePerson index).names, decide (person.name = "N/A") = false := by
    intro c index hindex hc
    refine ⟨hstep c index hindex hc.1, fun person hperson => ?_⟩
    exact hc.2 person (List.mem_of_mem_eraseIdx hperson)
  refine (ensures_removeNoted _ _ hround hc).imp fun c hc => ⟨hc.1.1, fun person hperson => ?_⟩
  rintro (hempty | hmissing)
  · exact of_decide_eq_false (hc.2 person hperson) hempty
  · exact of_decide_eq_false (hc.1.2 person hperson) hmissing

/-! ## §3. The numbering gives the normal form. -/

/-- **A crew without placeholders and dangling roles is in normal form after
the numbering.** -/
theorem normal_renumbered {c : Crew} (h : c.Attached)
    (hnamed : ∀ person ∈ c.names, ¬ isPlaceholder person.name) : c.renumbered.Normal := by
  rw [renumbered_eq h]
  refine normal_ofAppearances fun person hperson => ?_
  rw [← appearances_append, ← appearances_append] at hperson
  -- Whoever appears is the canonical form of somebody on the list.
  obtain ⟨appearance, happearance, rfl⟩ := List.mem_map.1 hperson
  obtain ⟨before, hbefore, heq⟩ := List.mem_map.1 (mem_names_of_mem_appearances happearance)
  rw [← heq]
  exact ⟨before.canonical_canonical, hnamed before hbefore⟩

/-- The numbering ends with the numbered crew, whether it notes that or not. -/
theorem ensures_canonicalize {c : Crew} {P : Crew → Prop} (h : P c.renumbered) :
    c.canonicalize.Ensures P := by
  unfold canonicalize
  simp only
  split
  · exact ensures_done h
  · exact ensures_repaired h

/-- **The two repairs give the normal form** to every crew whose roles are
attached. -/
theorem ensures_repairs {loaded : Loaded Crew} (h : loaded.Ensures Attached) :
    ((loaded.andThen removePlaceholders).andThen canonicalize).Ensures Normal := by
  have hcleared := ensures_andThen h fun c hc =>
    ensures_removePlaceholders (fun c index hindex => attached_removePerson hindex) hc
  exact ensures_andThen hcleared fun c hc => ensures_canonicalize (normal_renumbered hc.1 hc.2)

/-- Every crew that is loaded in today's layout is in normal form. -/
theorem ensures_load (old : Crew) (node : Json) : (load old node).Ensures Normal := by
  refine ensures_withFields fun fields _ => ?_
  have hchecked : ((loadFields fields).andThen checkRoles).Ensures Attached :=
    ensures_andThen (P := fun _ => True) (fun _ _ => trivial) fun c hc =>
      (ensures_checkRoles (P := fun _ => True) hc).imp fun c hc => hc.2
  exact ensures_repairs hchecked

/-! ## §4. The old layout. -/

/-- Keys are resolved by the list that all their people are registered on. -/
theorem resolveKeys_eq (display : SortedMap String) (names : List Person)
    (keyed : List KeyedRole) :
    resolveKeys display names keyed
      = (keyed.map fun role => roleIn
            (register names (keyed.map fun role => personOf display role.key))
            (personOf display role.key, role.contribution),
          register names (keyed.map fun role => personOf display role.key)) := by
  induction keyed generalizing names with
  | nil => rfl
  | cons role rest ih =>
    rw [resolveKeys]
    simp only [ih, List.map_cons]
    rw [← indexOf_register names (personOf display role.key)
      (rest.map fun role => personOf display role.key)]
    rfl

/-- The crew with keyed roles in a department, and with the people they name. -/
def withKeyed (display : SortedMap String) (department : Department) (c : Crew)
    (keyed : List KeyedRole) : Crew :=
  let names := register c.names (keyed.map fun role => personOf display role.key)
  let roles := keyed.map fun role => roleIn names (personOf display role.key, role.contribution)
  { c.setRoles roles department with names }

theorem ensures_withKeyed {display : SortedMap String} {fields : Json.Fields}
    {department : Department} {c : Crew} {P : Crew → Prop} {Q : List KeyedRole → Prop}
    (hfield : (loadField (loadList KeyedRole.load default) fields department.name []).Ensures Q)
    (h : ∀ keyed, Q keyed → P (withKeyed display department c keyed)) :
    (loadKeyedRoles display fields department c).Ensures P := by
  unfold loadKeyedRoles
  simp only
  split
  · rename_i hresult
    intro outcome houtcome
    have herror : (Except.error _ : Except LoadError Outcome) = .ok outcome :=
      hresult.symm.trans houtcome
    cases herror
  · rw [resolveKeys_eq]
    exact ensures_into fun outcome hresult => h _ (hfield outcome hresult)

/-- The roles of a department are attached to names that hold those of the
others too. -/
theorem attached_withKeyed (display : SortedMap String) (department : Department) {c : Crew}
    (h : c.Attached) (keyed : List KeyedRole) : (withKeyed display department c keyed).Attached := by
  intro role hrole
  obtain ⟨other, hrole⟩ := mem_allRoles.1 hrole
  unfold withKeyed at hrole
  simp only [roles_setRoles] at hrole
  by_cases heq : department = other
  · rw [if_pos heq] at hrole
    obtain ⟨keyedRole, hkeyed, rfl⟩ := List.mem_map.1 hrole
    refine isSome_personAt?_iff.1 (Option.isSome_iff_exists.2 ⟨_, personAt?_indexOf ?_⟩)
    exact mem_register.2 (.inr (List.mem_map.2 ⟨keyedRole, hkeyed, rfl⟩))
  · -- Names are only added behind those that other departments point at.
    rw [if_neg heq] at hrole
    have hbound := h.roles other role hrole
    have hlength := (prefix_register c.names
      (keyed.map fun role => personOf display role.key)).length_le
    exact ⟨hbound.1, Int.lt_of_lt_of_le hbound.2 (Int.ofNat_le.2 hlength)⟩

/-- What every department keeps holds of a crew in the old layout. -/
theorem ensures_loadLegacyFields {P : Crew → Prop} (hempty : P empty) {fields : Json.Fields}
    (hstep : ∀ display department c, P c → (loadKeyedRoles display fields department c).Ensures P)
    (old : Crew) (people : Option Json) : (loadLegacyFields old fields people).Ensures P := by
  unfold loadLegacyFields
  cases displayNames people with
  | error error => exact ensures_failed
  | ok display =>
    exact (((ensures_done hempty).andThen (hstep display .directors)).andThen
      (hstep display .writers)).andThen (hstep display .cast)

/-- So is every crew of the old layout. -/
theorem ensures_loadLegacy (old : Crew) (fields : Json.Fields) (people : Option Json) :
    (loadLegacy old fields people).Ensures Normal := by
  have hfields : (loadLegacyFields old fields people).Ensures Attached := by
    refine ensures_loadLegacyFields normal_empty.attached (fun display department c hc => ?_) old people
    exact ensures_withKeyed (Q := fun _ => True) (fun _ _ => trivial) fun keyed _ =>
      attached_withKeyed display department hc keyed
  refine ensures_repairs (ensures_andThen (ensures_under hfields) ?_)
  exact fun c hc => ensures_repaired hc

/-! ## §5. The crew of a record. -/

/-- **Every crew that is loaded is in normal form**, in either layout. -/
theorem ensures_loadFromRecord (record : Json.Fields) {old : Crew} (hold : old.Normal) :
    (loadFromRecord record old).Ensures Normal := by
  unfold loadFromRecord
  split
  · exact ensures_done hold
  · exact ensures_done hold
  · split
    · exact ensures_loadLegacy old _ _
    · exact ensures_under (ensures_load old _)
  · exact ensures_failed

end FilmCatalog.Crew
