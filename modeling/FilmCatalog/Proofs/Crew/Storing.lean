/-
  FilmCatalog.Proofs.Crew.Storing
  ───────────────────────────────
  **STORED CREWS.**

  A crew in normal form is loaded again as it was: its roles are attached, so
  the check passes; nobody is a placeholder; and its names already stand in
  the order in which they are numbered.

  Two things are needed beside the normal form (`Modest`): an empty
  contribution would be read as none, and an index has to fit 64 bits.  Both
  hold of what is loaded, the second since a document has room in memory.
-/
import FilmCatalog.Proofs.Crew.Loading
import FilmCatalog.Proofs.Json.Size
import FilmCatalog.Proofs.Storing

namespace FilmCatalog

open Loaded

namespace Crew

/-! ## §1. Crews of a modest size. -/

/-- What was contributed in a department, role by role. -/
def contributions (c : Crew) (department : Department) : List (Option String) :=
  (c.roles department).map (·.contribution)

/-- No more contributions than a document has room for, and none is empty. -/
def ModestList (contributions : List (Option String)) : Prop :=
  contributions.length ≤ Json.room ∧ some "" ∉ contributions

/-- Every department is of a modest size, without empty contributions. -/
def Modest (c : Crew) : Prop := ∀ department, ModestList (c.contributions department)

theorem modestList_nil : ModestList [] := ⟨Nat.zero_le _, List.not_mem_nil⟩

theorem modest_empty : Modest empty := by
  intro department
  cases department <;> exact modestList_nil

/-- A part of a modest list is modest. -/
theorem ModestList.sublist {list more : List (Option String)} (h : ModestList more)
    (hsublist : list.Sublist more) : ModestList list :=
  ⟨Nat.le_trans hsublist.length_le h.1, fun hmem => h.2 (hsublist.subset hmem)⟩

/-- Modest roles can be written into a modest crew, whatever its names. -/
theorem modest_setRoles {c : Crew} (h : c.Modest) {roles : List Role}
    (hroles : ModestList (roles.map (·.contribution))) (department : Department)
    (names : List Person) : Modest { c.setRoles roles department with names } := by
  intro other
  unfold contributions
  rw [roles_setRoles]
  by_cases heq : department = other
  · rw [if_pos heq]
    exact hroles
  · rw [if_neg heq]
    exact h other

/-- A removal takes contributions away and changes none. -/
theorem modest_removePerson {c : Crew} (h : c.Modest) (index : Nat) :
    (c.removePerson index).Modest := by
  intro department
  have hkept : (forgetId index (c.roles department)).map (·.contribution)
      = ((c.roles department).filter fun role => role.id ≠ (index : Int)).map (·.contribution) := by
    unfold forgetId
    rw [List.map_map]
    refine List.map_congr_left fun role _ => ?_
    show Role.contribution (if _ then _ else _) = _
    split <;> rfl
  unfold contributions
  rw [roles_removePerson, hkept]
  exact (h department).sublist (List.filter_sublist.map _)

/-- Numbering anew changes no contribution. -/
theorem contributions_renumber (known used : List Person) (roles : List Role) :
    (renumber known used roles).1.map (·.contribution) = roles.map (·.contribution) := by
  induction roles generalizing used with
  | nil => rfl
  | cons role rest ih =>
    rw [renumber]
    cases personAt? known role.id with
    | none => exact congrArg (role.contribution :: ·) (ih used)
    | some person => exact congrArg (role.contribution :: ·) (ih (addName used person))

/-- The numbering leaves the contributions alone. -/
theorem contributions_renumbered (c : Crew) (department : Department) :
    c.renumbered.contributions department = c.contributions department := by
  cases department <;> exact contributions_renumber _ _ _

/-! ## §2. Loaded crews are of a modest size. -/

/-- An empty text is read as no text. -/
theorem nonEmpty?_ne (text : String) : nonEmpty? text ≠ some "" := by
  unfold nonEmpty?
  by_cases h : text = "" <;> simp [h]

/-- A loaded role has no empty contribution. -/
theorem contribution_roleLoad (node : Json) :
    (Role.load default node).Ensures fun role => role.contribution ≠ some "" := by
  refine ensures_loadScalar fun role hread => ?_
  split at hread
  · obtain ⟨id, _, rfl⟩ := Option.map_eq_some_iff.1 hread
    exact nonEmpty?_ne _
  · obtain ⟨id, _, rfl⟩ := Option.map_eq_some_iff.1 hread
    exact nofun

/-- Nor has one that is loaded by key. -/
theorem contribution_keyedLoad (node : Json) :
    (KeyedRole.load default node).Ensures fun role => role.contribution ≠ some "" := by
  refine ensures_loadScalar fun role hread => ?_
  split at hread
  · cases hread
    exact nofun
  · cases hread
    exact nonEmpty?_ne _
  · cases hread

/-- A list of roles in a document, in either layout. -/
theorem ensures_loadModest {α : Type} {load : Loader α} {fresh : α} {contribution : α → Option String}
    (hload : ∀ node, (load fresh node).Ensures fun x => contribution x ≠ some "")
    {fields : Json.Fields} (hfields : (Json.object fields).Addressable) (key : String)
    {old : List α} (hold : ModestList (old.map contribution)) :
    (loadField (loadList load fresh) fields key old).Ensures
      fun items => ModestList (items.map contribution) := by
  refine ensures_loadField hold fun node hnode => ?_
  have hlength : (loadList load fresh old node).Ensures fun items => items.length ≤ Json.room := by
    refine ensures_length_loadList ?_
    rintro items rfl
    exact (hfields.get? hnode).length_le
  have hitems : (loadList load fresh old node).Ensures
      fun items => ∀ item ∈ items, contribution item ≠ some "" :=
    ensures_loadList fun node => (hload node).yields
  refine (hlength.and hitems).imp fun items h => ⟨?_, fun hmem => ?_⟩
  · rw [List.length_map]
    exact h.1
  · obtain ⟨item, hitem, hempty⟩ := List.mem_map.1 hmem
    exact h.2 item hitem hempty

/-- A department that is loaded from a document leaves the crew modest. -/
theorem ensures_modest_loadRoles {fields : Json.Fields} (hfields : (Json.object fields).Addressable)
    (department : Department) {c : Crew} (h : c.Modest) :
    (loadRoles fields department c).Ensures Modest := by
  have hroles := ensures_loadModest contribution_roleLoad hfields department.name (h department)
  exact ensures_into (hroles.imp fun roles hroles =>
    modest_setRoles h hroles department (c.setRoles roles department).names)

/-- So do all departments, one after the other. -/
theorem ensures_modest_loadFields {fields : Json.Fields}
    (hfields : (Json.object fields).Addressable) : (loadFields fields).Ensures Modest := by
  have hroles : ∀ department c, c.Modest → (loadRoles fields department c).Ensures Modest :=
    fun department c => ensures_modest_loadRoles hfields department
  -- The names come last, and they are no contributions.
  refine Ensures.andThen ?_ fun c hc => ensures_into fun _ _ => hc
  exact (((ensures_done modest_empty).andThen (hroles .directors)).andThen
    (hroles .writers)).andThen (hroles .cast)

/-- Modest roles by key leave the crew modest. -/
theorem modest_withKeyed (display : SortedMap String) (department : Department) {c : Crew}
    (h : c.Modest) {keyed : List KeyedRole} (hkeyed : ModestList (keyed.map (·.contribution))) :
    (withKeyed display department c keyed).Modest := by
  refine modest_setRoles h ?_ department _
  rw [List.map_map]
  exact hkeyed

/-- A crew that is loaded in the old layout is modest as well. -/
theorem ensures_modest_loadLegacyFields {fields : Json.Fields}
    (hfields : (Json.object fields).Addressable) (old : Crew) (people : Option Json) :
    (loadLegacyFields old fields people).Ensures Modest := by
  refine ensures_loadLegacyFields modest_empty (fun display department c hc => ?_) old people
  refine ensures_withKeyed ?_ fun keyed hkeyed => modest_withKeyed display department hc hkeyed
  exact ensures_loadModest contribution_keyedLoad hfields department.name modestList_nil

/-- The two repairs keep a crew modest. -/
theorem ensures_modest_repairs {loaded : Loaded Crew} (h : loaded.Ensures Modest) :
    ((loaded.andThen removePlaceholders).andThen canonicalize).Ensures Modest := by
  have hcleared := ensures_andThen h fun c hc =>
    ensures_removePlaceholders (P := Modest) (fun c index _ hc => modest_removePerson hc index) hc
  refine ensures_andThen hcleared fun c hc => ensures_canonicalize fun department => ?_
  rw [contributions_renumbered]
  exact hc.1 department

/-- **Every crew that is loaded from a document is modest**, in either
layout. -/
theorem ensures_modest_loadFromRecord {record : Json.Fields}
    (hrecord : (Json.object record).Addressable) {old : Crew} (hold : old.Modest) :
    (loadFromRecord record old).Ensures Modest := by
  unfold loadFromRecord
  split
  · exact ensures_done hold
  · exact ensures_done hold
  · rename_i fields hcrew
    have hfields := hrecord.get? hcrew
    split
    · have hlegacy := ensures_modest_loadLegacyFields hfields old (record.get? "people")
      exact ensures_modest_repairs ((ensures_under hlegacy).andThen fun c hc => ensures_repaired hc)
    · refine ensures_under (ensures_modest_repairs ?_)
      refine (ensures_modest_loadFields hfields).andThen fun c hc => ?_
      exact (ensures_checkRoles hc).imp fun c hc => hc.1
  · exact ensures_failed

end Crew

/-! ## §3. Roles and people are loaded again. -/

theorem Json.toInt?_ofInt {n : Int} (h : -9223372036854775808 ≤ n ∧ n < 9223372036854775808) :
    (Json.ofInt n).toInt? = some n := if_pos h

/-- A role is loaded again if its index can be read. -/
theorem Role.load_store {r : Role} (hid : (Json.ofInt r.id).toInt? = some r.id)
    (hcontribution : r.contribution ≠ some "") (old : Role) :
    load old r.store = done r .unchanged := by
  refine loadScalar_of_read ?_ old
  obtain ⟨id, contribution⟩ := r
  cases contribution with
  | none =>
    show (Json.ofInt id).toInt?.map _ = _
    rw [hid]
    rfl
  | some contribution =>
    show (Json.ofInt id).toInt?.map (fun id => Role.mk id (nonEmpty? contribution)) = _
    have hfilled : contribution ≠ "" := fun hempty => hcontribution (congrArg some hempty)
    rw [hid, nonEmpty?, if_neg hfilled]
    rfl

namespace Person

theorem textsOf_map_string (texts : List String) : textsOf (texts.map .string) = .ok texts := by
  induction texts with
  | nil => rfl
  | cons text rest ih =>
    rw [List.map_cons, textsOf, ih]
    rfl

/-- A person is loaded again. -/
theorem load_store (p old : Person) : load old p.store = done p .unchanged := by
  obtain ⟨name, refs⟩ := p
  unfold store
  cases refs with
  | nil => rfl
  | cons ref rest =>
    show load old (.array (.string name :: (ref :: rest).map .string)) = _
    simp only [load, textsOf_map_string]

end Person

/-! ## §4. Crews are loaded again. -/

namespace Crew

/-- The lists of a crew with their keys. -/
def parts (c : Crew) : List (String × Json) :=
  [ ("directors", storeList Role.store c.directors),
    ("writers", storeList Role.store c.writers),
    ("cast", storeList Role.store c.cast),
    ("names", storeList Person.store c.names) ]

theorem nodup_parts (c : Crew) : (c.parts.map (·.1)).Nodup := by
  show ["directors", "writers", "cast", "names"].Nodup
  decide

/-- Each department stands under its own name. -/
theorem get?_parts (c : Crew) (department : Department) :
    Entries.get? department.name c.parts = some (storeList Role.store (c.roles department)) := by
  cases department <;> rfl

/-- The roles of a modest crew are numbered within 64 bits. -/
theorem toInt?_id {c : Crew} (h : c.Normal) (hmodest : c.Modest) {role : Role}
    (hrole : role ∈ c.allRoles) : (Json.ofInt role.id).toInt? = some role.id := by
  have hdirectors := (hmodest .directors).1
  have hwriters := (hmodest .writers).1
  have hcast := (hmodest .cast).1
  -- Every name is used, so there are no more names than roles in three departments.
  have hnames := length_names_le h
  have hid := h.attached role hrole
  unfold contributions at hdirectors hwriters hcast
  simp only [List.length_map, roles, Json.room] at hdirectors hwriters hcast
  simp only [allRoles, List.length_append] at hnames
  exact Json.toInt?_ofInt (by omega)

/-- The roles of a department are no keyed ones. -/
theorem isLegacy_storedObject (c : Crew) : isLegacy (storedObject c.parts) = false := by
  have hitem : ∀ role : Role, isKeyedItem role.store = false := by
    rintro ⟨id, _ | contribution⟩ <;> rfl
  unfold isLegacy
  refine List.any_eq_false.2 fun department _ => ?_
  rw [get?_storedObject c.nodup_parts, get?_parts]
  unfold storeList
  cases c.roles department with
  | nil => exact Bool.false_ne_true
  | cons role rest =>
    show ¬ ((role :: rest).map Role.store).any isKeyedItem = true
    simp [hitem]

/-- The parts of a normal crew are loaded again, in silence. -/
theorem quiet_loadFields {c : Crew} (h : c.Normal) (hmodest : c.Modest) :
    (loadFields (storedObject c.parts)).Quiet c := by
  have hroles : ∀ department, Rereads (loadList Role.load default) []
      (storeList Role.store (c.roles department)) (c.roles department) := by
    refine fun department => rereads_storeList_self fun role hrole => ?_
    refine Role.load_store (toInt?_id h hmodest (mem_allRoles.2 ⟨department, hrole⟩)) ?_ _
    exact fun hempty => (hmodest department).2 (List.mem_map.2 ⟨role, hrole, hempty⟩)
  have hnames : Rereads (loadList Person.load default) [] (storeList Person.store c.names) c.names :=
    rereads_storeList_self fun person _ => person.load_store _
  have hfield : ∀ department, (loadField (loadList Role.load default) (storedObject c.parts)
      department.name []).Quiet (c.roles department) := fun department =>
    quiet_loadField c.nodup_parts (c.get?_parts department) (hroles department)
  have hget : Entries.get? "names" c.parts = some (storeList Person.store c.names) := rfl
  have hlast := quiet_loadField c.nodup_parts hget hnames
  exact ((((quiet_absent empty).andThen ((hfield .directors).into _)).andThen
    ((hfield .writers).into _)).andThen ((hfield .cast).into _)).andThen (hlast.into _)

/-- A crew without dangling roles passes the check. -/
theorem checkRoles_of_attached {c : Crew} (h : c.Attached) : c.checkRoles = done c .absent := by
  unfold checkRoles validate
  rw [dangling?_eq_none_iff.2 h]

/-- Nobody is removed if nobody fails the test. -/
theorem removeNoted_of_passes (test : String → Bool) (note : String) {c : Crew}
    (h : ∀ person ∈ c.names, test person.name = false) :
    c.removeNoted test note = done c .unchanged := by
  unfold removeNoted
  refine if_neg ?_
  rw [Bool.not_eq_true, List.any_eq_false]
  exact fun person hperson => Bool.eq_false_iff.1 (h person hperson)

/-- A normal crew has no placeholders. -/
theorem removePlaceholders_of_normal {c : Crew} (h : c.Normal) :
    c.removePlaceholders = done c .unchanged := by
  refine andThen_done (removeNoted_of_passes _ _ ?_) (removeNoted_of_passes _ _ ?_)
  · exact fun person hperson => decide_eq_false fun heq => h.named person hperson (.inr heq)
  · exact fun person hperson => decide_eq_false fun heq => h.named person hperson (.inl heq)

/-- The names of a crew in normal form keep their numbers. -/
theorem canonicalize_of_normal {c : Crew} (h : c.Normal) :
    c.canonicalize = done c .unchanged := by
  have hnames : c.names.map Person.canonical = c.names :=
    (List.map_congr_left h.canonical).trans (List.map_id _)
  have hrenumbered : c.renumbered = c := by
    rw [renumbered_eq h.attached, hnames, ofAppearances_of_normal h]
  unfold canonicalize
  simp only [hrenumbered, if_true]

/-- **A stored crew is loaded again.** -/
theorem rereads_store {c : Crew} (h : c.Normal) (hmodest : c.Modest) :
    Rereads load empty c.store c := by
  have hcheck : c.checkRoles.Quiet c := checkRoles_of_attached h.attached ▸ quiet_absent c
  have hclear : c.removePlaceholders.Quiet c := removePlaceholders_of_normal h ▸ quiet_unchanged c
  have hnumber : c.canonicalize.Quiet c := canonicalize_of_normal h ▸ quiet_unchanged c
  -- A crew without roles and names is stored as nothing.
  have hempty : (((loadFields []).andThen checkRoles).andThen removePlaceholders
      |>.andThen canonicalize).Quiet empty := quiet_unchanged empty
  refine rereads_storeFields hempty ?_
  exact (((quiet_loadFields h hmodest).andThen hcheck).andThen hclear).andThen hnumber

/-- The crew of a stored record, whatever else is stored with it. -/
theorem quiet_loadFromRecord {record : List (String × Json)} (hkeys : (record.map (·.1)).Nodup)
    {c : Crew} (h : c.Normal) (hmodest : c.Modest)
    (hget : Entries.get? "crew" record = some c.store) :
    (loadFromRecord (storedObject record) empty).Quiet c := by
  have hcrew := rereads_store h hmodest
  unfold loadFromRecord
  rw [get?_storedObject hkeys, hget]
  rcases storeFields_eq c.parts with ⟨hstore, _⟩ | hstore
  · have hnull : c.store = .null := hstore
    rw [hnull] at hcrew ⊢
    rw [hcrew.1 rfl]
    exact quiet_absent empty
  · have hobject : c.store = .object (storedObject c.parts) := hstore
    rw [hobject] at hcrew ⊢
    simp only [Option.filter_some, Json.isNull, Bool.not_false, if_true, isLegacy_storedObject]
    exact (hcrew.2 rfl).under "crew"

end Crew

end FilmCatalog
