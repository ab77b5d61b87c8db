/-
  FilmCatalog.Proofs.Crew.Attribution
  ───────────────────────────────────
  **A LOAD KEEPS WHO DID WHAT.**

  A document says of every role whose it is and what was contributed:

      SaysPerson   what an item of the list of names says
      StandsFor    whom an index or a key stands for
      SaysRole     whose role an item is, with its contribution

  On the way to the loaded crew indices are read, checked, shifted while
  placeholders go one by one, and replaced when the names are numbered anew;
  keys become indices first.  Through all of that a crew is seen by its
  *attributions*, the people of its roles in their order:

    • reading gives the attributions that the document says
      (`told_loadFields`, `told_loadLegacyFields`),
    • a removal takes those of one person away, and no others
      (`attributions_removePerson`), so the repair leaves out exactly the
      placeholders (`ensures_attributions_removePlaceholders`),
    • the numbering puts people into canonical form (`attributions_renumbered`).

  Main result: `asDescribed_loadFromRecord`.
-/
import FilmCatalog.Proofs.Crew.Agreement

namespace FilmCatalog.Crew

open Loaded

/-! ## §1. What a document says. -/

/-- The items of the list under a key; there are none if there is no list. -/
def itemsUnder (fields : Json.Fields) (key : String) : List Json :=
  match fields.get? key with
  | some (.array items) => items
  | _ => []

/-- The people whom a record of the old layout names by keys. -/
def peopleOf (record : Json.Fields) : Json.Fields :=
  match record.get? "people" with
  | some (.object people) => people
  | _ => []

/-- What an item of the list of names says: a name, or a name and references. -/
inductive SaysPerson : Json → Person → Prop
  | name (name : String) : SaysPerson (.string name) ⟨name, []⟩
  | nameAndRefs (name : String) (refs : List String) :
      SaysPerson (.array (.string name :: refs.map .string)) ⟨name, refs⟩

/-- **Whom an item stands for.**  An index stands for the person who is listed
there.  A key stands for the person whom `people` names, with the key as the
only reference, and else for a person of that name without references. -/
inductive StandsFor (names : List Json) (people : Json.Fields) : Json → Person → Prop
  | index {id : Nat} {item : Json} {person : Person} (hitem : names[id]? = some item)
      (hperson : SaysPerson item person) : StandsFor names people (.ofInt id) person
  | knownKey {key name : String} (hname : (key, .string name) ∈ people) (hfilled : name ≠ "") :
      StandsFor names people (.string key) ⟨name, [key]⟩
  | otherKey {key : String} (hunnamed : ∀ name, (key, .string name) ∈ people → name = "") :
      StandsFor names people (.string key) ⟨key, []⟩

/-- **What the item of a role says**: whose role it is, and what was
contributed.  An empty contribution is none. -/
inductive SaysRole (names : List Json) (people : Json.Fields) :
    Json → Person × Option String → Prop
  | bare {node : Json} {person : Person} (h : StandsFor names people node person) :
      SaysRole names people node (person, none)
  | contributing {node : Json} {person : Person} {text : String}
      (h : StandsFor names people node person) (hfilled : text ≠ "") :
      SaysRole names people (.array [node, .string text]) (person, some text)
  | contributingNothing {node : Json} {person : Person}
      (h : StandsFor names people node person) :
      SaysRole names people (.array [node, .string ""]) (person, none)

/-- A contribution that was read is one that the item says. -/
theorem saysRole_nonEmpty? {names : List Json} {people : Json.Fields} {node : Json} {person : Person}
    (h : StandsFor names people node person) (text : String) :
    SaysRole names people (.array [node, .string text]) (person, nonEmpty? text) := by
  unfold nonEmpty?
  by_cases hempty : text = ""
  · rw [if_pos hempty, hempty]
    exact .contributingNothing h
  · rw [if_neg hempty]
    exact .contributing h hempty

/-- The people of the roles in a department, with what they contributed. -/
def attributions (c : Crew) (department : Department) : List (Person × Option String) :=
  appearances c.names (c.roles department)

/-- The roles of a department with those whom they lead to. -/
def resolved (c : Crew) (department : Department) : List (Option Person × Option String) :=
  (c.roles department).map fun role => (personAt? c.names role.id, role.contribution)

/-- The person of a role has a name. -/
def isNamed (a : Person × Option String) : Bool := a.1.name ≠ "N/A" && a.1.name ≠ ""

/-- **The crew holds what the document describes**: the people of its roles are
those whom the items of each list say, in their order and in canonical form,
and exactly the roles of people without a name are left out. -/
def AsDescribed (fields people : Json.Fields) (c : Crew) : Prop :=
  ∀ department, ∃ described,
    List.Forall₂ (SaysRole (itemsUnder fields "names") people)
        (itemsUnder fields department.name) described ∧
      c.resolved department = (described.filter isNamed).map fun a => (some a.1.canonical, a.2)

/-- Where no role dangles, every one of them is an attribution. -/
theorem resolved_eq {c : Crew} (h : c.Attached) (department : Department) :
    c.resolved department
      = (c.attributions department).map fun appearance => (some appearance.1, appearance.2) := by
  have hbound := h.roles department
  unfold resolved attributions
  revert hbound
  induction c.roles department with
  | nil => exact fun _ => rfl
  | cons role rest ih =>
    intro hbound
    obtain ⟨hrole, hrest⟩ := List.forall_mem_cons.1 hbound
    obtain ⟨person, hperson⟩ := Option.isSome_iff_exists.1 (isSome_personAt?_iff.2 hrole)
    rw [List.map_cons, appearances_cons hperson, List.map_cons, ih hrest, hperson]

/-! ## §2. The repairs. -/

/-- Behind a person who is removed all indices move up by one. -/
theorem personAt?_eraseIdx (names : List Person) (index : Nat) {id : Int} (h : id ≠ index) :
    personAt? (names.eraseIdx index) (if index < id then id - 1 else id) = personAt? names id := by
  unfold personAt?
  by_cases hnegative : 0 ≤ id
  · by_cases hbehind : (index : Int) < id
    · have hnonneg : 0 ≤ id - 1 := by omega
      have hplace : ¬ (id - 1).toNat < index := by omega
      have hnext : (id - 1).toNat + 1 = id.toNat := by omega
      rw [if_pos hbehind, if_pos hnonneg, if_pos hnegative, List.getElem?_eraseIdx, if_neg hplace,
        hnext]
    · have hplace : id.toNat < index := by omega
      rw [if_neg hbehind, if_pos hnegative, if_pos hnegative, List.getElem?_eraseIdx, if_pos hplace]
  · have hbefore : ¬ (index : Int) < id := by omega
    rw [if_neg hbefore, if_neg hnegative, if_neg hnegative]

/-- **A removal takes away the roles of one person**, and all others keep
theirs. -/
theorem attributions_removePerson (c : Crew) (index : Nat) (department : Department) :
    (c.removePerson index).attributions department
      = appearances c.names ((c.roles department).filter fun role => role.id ≠ index) := by
  unfold attributions appearances
  rw [roles_removePerson]
  unfold forgetId
  rw [List.filterMap_map]
  refine List.filterMap_congr fun role hrole => ?_
  have hother : role.id ≠ index := of_decide_eq_true (List.mem_filter.1 hrole).2
  have hperson := personAt?_eraseIdx c.names index hother
  show (personAt? (c.names.eraseIdx index) _).map _ = _
  by_cases hbehind : (index : Int) < role.id
  · simp only [if_pos hbehind] at hperson ⊢
    rw [hperson]
  · simp only [if_neg hbehind] at hperson ⊢
    rw [hperson]

/-- Who is removed was not meant to be kept. -/
theorem filter_attributions_removePerson (keep : Person → Bool) {c : Crew} {index : Nat}
    (hindex : index < c.names.length) (hgone : keep (c.names[index]) = false)
    (department : Department) :
    ((c.removePerson index).attributions department).filter (fun a => keep a.1)
      = (c.attributions department).filter fun a => keep a.1 := by
  rw [attributions_removePerson]
  unfold attributions appearances
  rw [List.filterMap_filter, List.filter_filterMap, List.filter_filterMap]
  refine List.filterMap_congr fun role _ => ?_
  by_cases hid : role.id = index
  · -- The role of the removed person, on the side where it still stands.
    have hperson : personAt? c.names role.id = some (c.names[index]) := by
      rw [hid]
      exact personAt?_eq_some_iff.2 ⟨by omega, List.getElem?_eq_getElem hindex⟩
    rw [hperson]
    simp [hid, Option.filter, hgone]
  · simp [hid]

/-- **A removal by name leaves exactly the roles of those with other names.** -/
theorem attributions_removeNamed (test : String → Bool) (c : Crew) (department : Department) :
    (c.removeNamed test).attributions department
      = (c.attributions department).filter fun a => !test a.1.name := by
  have hkept : ((c.removeNamed test).attributions department).filter (fun a => !test a.1.name)
      = (c.attributions department).filter fun a => !test a.1.name := by
    refine removeNamed_induction (P := fun d => (d.attributions department).filter
      (fun a => !test a.1.name) = (c.attributions department).filter fun a => !test a.1.name)
      test ?_ rfl
    intro d index hindex hnamed hd
    rw [← hd]
    exact filter_attributions_removePerson (fun person => !test person.name) hindex
      (by simp [hnamed]) department
  rw [← hkept, List.filter_eq_self.2]
  intro a ha
  rw [removeNamed_passes test c a.1 (mem_names_of_mem_appearances ha)]
  rfl

/-- A removal drops the attributions of the people who fail the test, and no
other one. -/
theorem ensures_attributions_removeNoted (test : String → Bool) (note : String) (c : Crew) :
    (c.removeNoted test note).Ensures fun d => ∀ department, d.attributions department
      = (c.attributions department).filter fun a => !test a.1.name := by
  unfold removeNoted
  by_cases hany : (c.names.any fun person => test person.name) = true
  · rw [if_pos hany]
    exact ensures_repaired (attributions_removeNamed test c)
  · rw [if_neg hany]
    refine ensures_done fun department => (List.filter_eq_self.2 fun a ha => ?_).symm
    rw [Bool.not_eq_true, List.any_eq_false] at hany
    simpa using hany a.1 (mem_names_of_mem_appearances ha)

/-- **The repair leaves out exactly the roles of placeholders.** -/
theorem ensures_attributions_removePlaceholders (c : Crew) :
    c.removePlaceholders.Ensures fun d => ∀ department,
      d.attributions department = (c.attributions department).filter isNamed := by
  refine ensures_andThen (ensures_attributions_removeNoted _ _ c) fun d hd => ?_
  refine (ensures_attributions_removeNoted _ _ d).imp fun e he department => ?_
  rw [he, hd, List.filter_filter]
  refine List.filter_congr fun a _ => ?_
  simp [isNamed, Bool.and_comm]

/-- Numbered anew, roles lead to the same people, in canonical form. -/
theorem attributions_renumbered {c : Crew} (h : c.Attached) (department : Department) :
    c.renumbered.attributions department
      = (c.attributions department).map fun a => (a.1.canonical, a.2) := by
  unfold attributions
  rw [renumbered_eq h, ← appearances_map]
  exact appearances_ofAppearances
    (fun department => appearances (c.names.map Person.canonical) (c.roles department)) department

/-! ## §3. Reading lists. -/

/-- A list that is read is told item by item. -/
theorem ensures_itemsUnder {α : Type} {load : Loader α} {fresh : α} {R : Json → α → Prop}
    (hpresent : ∀ node, (load fresh node).result ≠ .ok .absent)
    (h : ∀ node, (load fresh node).Ensures (R node)) (fields : Json.Fields) (key : String) :
    (loadField (loadList load fresh) fields key []).Ensures
      (List.Forall₂ R (itemsUnder fields key)) := by
  unfold loadField itemsUnder
  cases fields.get? key with
  | none => exact ensures_done .nil
  | some node =>
    cases node with
    | null => exact ensures_done .nil
    | array items => exact ensures_under (ensures_loadItems_each hpresent h 0 items)
    | _ => exact ensures_under ensures_failed

/-- A scalar is never absent. -/
theorem loadScalar_present {α : Type} (expected : String) (read : Json → Option α) (old : α)
    (node : Json) : (loadScalar expected read old node).result ≠ .ok .absent := by
  unfold loadScalar
  cases read node with
  | none => simp [failed]
  | some value => simp [done]

/-! ## §4. Today's layout. -/

/-- References that could be read are texts. -/
theorem textsOf_eq_ok {items : List Json} {texts : List String}
    (h : Person.textsOf items = .ok texts) : items = texts.map .string := by
  induction items generalizing texts with
  | nil =>
    cases h
    rfl
  | cons item rest ih =>
    cases item with
    | string text =>
      rw [Person.textsOf] at h
      cases hrest : Person.textsOf rest with
      | error error =>
        rw [hrest] at h
        cases h
      | ok others =>
        rw [hrest] at h
        cases h
        rw [List.map_cons, ih hrest]
    | _ => cases h

theorem person_present (old : Person) (node : Json) :
    (Person.load old node).result ≠ .ok .absent := by
  unfold Person.load
  split
  · simp [done]
  · simp [failed]
  · split
    · simp [done]
    · simp [failed]
  · simp [failed]
  · simp [failed]

/-- A person is read as the item says. -/
theorem ensures_saysPerson (old : Person) (node : Json) :
    (Person.load old node).Ensures (SaysPerson node) := by
  unfold Person.load
  split
  · exact ensures_done (.name _)
  · exact ensures_failed
  · split
    · rename_i items refs hrefs
      rw [textsOf_eq_ok hrefs]
      exact ensures_done (.nameAndRefs _ refs)
    · exact ensures_failed
  · exact ensures_failed
  · exact ensures_failed

/-- An integer is read from its own node only. -/
theorem eq_ofInt_of_toInt? {node : Json} {id : Int} (h : node.toInt? = some id) :
    node = .ofInt id := by
  unfold Json.toInt? at h
  split at h
  · split at h
    · cases h
      rfl
    · cases h
  · cases h

/-- A role is read as its item says, whomever its index leads to. -/
def ReadsRole (names : List Json) (people : Json.Fields) (node : Json) (role : Role) : Prop :=
  ∀ (id : Nat) item person, role.id = id → names[id]? = some item → SaysPerson item person →
    SaysRole names people node (person, role.contribution)

/-- A role is read as its item says. -/
theorem ensures_readsRole (names : List Json) (people : Json.Fields) (old : Role) (node : Json) :
    (Role.load old node).Ensures (ReadsRole names people node) := by
  refine ensures_loadScalar fun role hread => ?_
  split at hread
  · rename_i item text
    obtain ⟨number, hnumber, rfl⟩ := Option.map_eq_some_iff.1 hread
    rintro id listed person rfl hlisted hperson
    rw [eq_ofInt_of_toInt? hnumber]
    exact saysRole_nonEmpty? (.index hlisted hperson) text
  · obtain ⟨number, hnumber, rfl⟩ := Option.map_eq_some_iff.1 hread
    rintro id listed person rfl hlisted hperson
    rw [eq_ofInt_of_toInt? hnumber]
    exact .bare (.index hlisted hperson)

/-- What is read so far: the departments that are done, and nothing else. -/
structure ReadSoFar (fields people : Json.Fields) (finished : List Department) (c : Crew) : Prop where
  names : c.names = []
  roles : ∀ department ∈ finished,
    List.Forall₂ (ReadsRole (itemsUnder fields "names") people)
      (itemsUnder fields department.name) (c.roles department)
  others : ∀ department, department ∉ finished → c.roles department = []

/-- One more department is read, and the others stay as they are. -/
theorem ReadSoFar.loadRoles {fields people : Json.Fields} {finished : List Department} {c : Crew}
    (h : ReadSoFar fields people finished c) (department : Department) (hnew : department ∉ finished) :
    (loadRoles fields department c).Ensures (ReadSoFar fields people (department :: finished)) := by
  unfold Crew.loadRoles
  rw [h.others department hnew]
  refine ensures_into ((ensures_itemsUnder (loadScalar_present _ _ _)
    (ensures_readsRole (itemsUnder fields "names") people _) fields department.name).imp ?_)
  intro roles hroles
  have hset : ∀ other, (c.setRoles roles department).roles other
      = if department = other then roles else c.roles other :=
    roles_setRoles c roles c.names department
  constructor
  case names =>
    rw [← h.names]
    cases department <;> rfl
  case roles =>
    intro other hother
    rw [hset]
    by_cases heq : department = other
    · rw [if_pos heq, ← heq]
      exact hroles
    · rw [if_neg heq]
      exact h.roles other ((List.mem_cons.1 hother).resolve_left fun hsame => heq hsame.symm)
  case others =>
    intro other hother
    rw [List.mem_cons, not_or] at hother
    rw [hset, if_neg fun heq => hother.1 heq.symm]
    exact h.others other hother.2

/-- Names and roles are read item by item. -/
theorem ensures_read_loadFields (fields people : Json.Fields) :
    (loadFields fields).Ensures fun c =>
      List.Forall₂ SaysPerson (itemsUnder fields "names") c.names ∧
        ∀ department, List.Forall₂ (ReadsRole (itemsUnder fields "names") people)
          (itemsUnder fields department.name) (c.roles department) := by
  have hstart : (done empty .absent).Ensures (ReadSoFar fields people []) := by
    apply ensures_done
    exact ⟨rfl, by simp, fun department _ => by cases department <;> rfl⟩
  have hdirectors := ensures_andThen hstart fun c hc => hc.loadRoles .directors (by decide)
  have hwriters := ensures_andThen hdirectors fun c hc => hc.loadRoles .writers (by decide)
  have hcast := ensures_andThen hwriters fun c hc => hc.loadRoles .cast (by decide)
  refine ensures_andThen hcast fun c hc => ensures_into ?_
  rw [hc.names]
  have hnames := ensures_itemsUnder (person_present default) (ensures_saysPerson default) fields
    "names"
  refine hnames.imp fun names hnames => ⟨hnames, fun department => ?_⟩
  have hroles := hc.roles department (by cases department <;> decide)
  cases department <;> exact hroles

/-- What relates two lists relates their items at one place. -/
theorem exists_item {α β : Type} {R : α → β → Prop} {items : List α} {values : List β}
    (h : List.Forall₂ R items values) {i : Nat} {value : β} (hvalue : values[i]? = some value) :
    ∃ item, items[i]? = some item ∧ R item value := by
  induction h generalizing i with
  | nil => cases hvalue
  | cons hhead _ ih =>
    cases i with
    | zero =>
      cases hvalue
      exact ⟨_, rfl, hhead⟩
    | succ i => exact ih hvalue

/-- Roles that point at somebody say whom the document means. -/
theorem forall₂_saysRole {names : List Json} {people : Json.Fields} {listed : List Person}
    (hnames : List.Forall₂ SaysPerson names listed) {items : List Json} {roles : List Role}
    (hroles : List.Forall₂ (ReadsRole names people) items roles)
    (hbound : ∀ role ∈ roles, 0 ≤ role.id ∧ role.id < listed.length) :
    List.Forall₂ (SaysRole names people) items (appearances listed roles) := by
  induction hroles with
  | nil => exact .nil
  | cons hrole _ ih =>
    obtain ⟨hhead, hrest⟩ := List.forall_mem_cons.1 hbound
    obtain ⟨person, hperson⟩ := Option.isSome_iff_exists.1 (isSome_personAt?_iff.2 hhead)
    obtain ⟨item, hitem, hsays⟩ := exists_item hnames (personAt?_eq_some_iff.1 hperson).2
    rw [appearances_cons hperson]
    exact .cons (hrole _ item person (by omega) hitem hsays) (ih hrest)

/-- **The crew holds what the document says** in the departments that are
finished. -/
def Told (fields people : Json.Fields) (finished : List Department) (c : Crew) : Prop :=
  c.Attached ∧ ∀ department ∈ finished,
    List.Forall₂ (SaysRole (itemsUnder fields "names") people)
      (itemsUnder fields department.name) (c.attributions department)

/-- **Today's layout is read as it is told.** -/
theorem told_loadFields (fields people : Json.Fields) :
    ((loadFields fields).andThen checkRoles).Ensures (Told fields people Department.all) := by
  refine ensures_andThen (ensures_read_loadFields fields people) fun c hc => ?_
  have hchecked := ensures_checkRoles (P := fun d => d = c) rfl
  refine hchecked.imp fun d hd => ⟨hd.2, fun department _ => ?_⟩
  obtain ⟨rfl, hattached⟩ := hd
  exact forall₂_saysRole hc.1 (hc.2 department) (hattached.roles department)

/-! ## §5. The old layout. -/

/-- The names that are given to keys are the filled ones of `people`. -/
theorem get?_displayNames {record : Json.Fields} {display : SortedMap String}
    (h : displayNames (record.get? "people") = .ok display) (key : String) :
    (∀ name, display.get? key = some name → (key, .string name) ∈ peopleOf record ∧ name ≠ "") ∧
      (display.get? key = none → ∀ name, (key, .string name) ∈ peopleOf record → name = "") := by
  unfold displayNames at h
  unfold peopleOf
  cases hpeople : record.get? "people" with
  | none =>
    rw [hpeople] at h
    cases h
    simp
  | some node =>
    rw [hpeople] at h
    cases node with
    | null =>
      cases h
      simp
    | object people =>
      cases h
      rw [SortedMap.get?_ofList]
      constructor
      · intro name hname
        have hmem := List.mem_reverse.1 (Entries.mem_of_get? hname)
        obtain ⟨⟨other, value⟩, hentry, hread⟩ := List.mem_filterMap.1 hmem
        cases value with
        | string text =>
          obtain ⟨found, hfound, heq⟩ := Option.map_eq_some_iff.1 hread
          cases heq
          unfold nonEmpty? at hfound
          split at hfound
          · cases hfound
          · rename_i hfilled
            cases hfound
            exact ⟨hentry, hfilled⟩
        | _ => cases hread
      · intro hnone name hname
        -- A filled name would have been listed under the key.
        refine Decidable.byContradiction fun hfilled => ?_
        refine Entries.get?_eq_none_iff.1 hnone (key, name) (List.mem_reverse.2 ?_) rfl
        refine List.mem_filterMap.2 ⟨(key, .string name), hname, ?_⟩
        simp [nonEmpty?, hfilled]
    | _ => cases h

/-- A key stands for the person whom it is resolved to. -/
theorem standsFor_personOf {record : Json.Fields} {display : SortedMap String}
    (h : displayNames (record.get? "people") = .ok display) (names : List Json) (key : String) :
    StandsFor names (peopleOf record) (.string key) (personOf display key) := by
  obtain ⟨hknown, hother⟩ := get?_displayNames h key
  unfold personOf
  cases hname : display.get? key with
  | none => exact .otherKey (hother hname)
  | some name => exact .knownKey (hknown name hname).1 (hknown name hname).2

/-- A role of the old layout is read as its item says. -/
theorem ensures_keyedRole {record : Json.Fields} {display : SortedMap String}
    (h : displayNames (record.get? "people") = .ok display) (names : List Json) (old : KeyedRole)
    (node : Json) :
    (KeyedRole.load old node).Ensures fun keyed =>
      SaysRole names (peopleOf record) node (personOf display keyed.key, keyed.contribution) := by
  refine ensures_loadScalar fun keyed hread => ?_
  split at hread
  · cases hread
    exact .bare (standsFor_personOf h names _)
  · cases hread
    exact saysRole_nonEmpty? (standsFor_personOf h names _) _
  · cases hread

/-- Roles keep their people when further names are added. -/
theorem appearances_extended {names more : List Person} (h : names <+: more) {roles : List Role}
    (hbound : ∀ role ∈ roles, 0 ≤ role.id ∧ role.id < names.length) :
    appearances more roles = appearances names roles := by
  obtain ⟨rest, rfl⟩ := h
  refine List.filterMap_congr fun role hrole => ?_
  obtain ⟨hnonneg, hlt⟩ := hbound role hrole
  unfold personAt?
  rw [if_pos hnonneg, if_pos hnonneg, List.getElem?_append_left (by omega)]

/-- A department of the old layout gets its own roles, and the others keep
theirs. -/
theorem attributions_withKeyed (display : SortedMap String) (department : Department) {c : Crew}
    (h : c.Attached) (keyed : List KeyedRole) (other : Department) :
    (withKeyed display department c keyed).attributions other
      = if department = other then
          keyed.map fun role => (personOf display role.key, role.contribution)
        else c.attributions other := by
  unfold attributions withKeyed
  simp only [roles_setRoles]
  by_cases heq : department = other
  · rw [if_pos heq, if_pos heq]
    have hroles : ∀ names, (keyed.map fun role =>
        roleIn names (personOf display role.key, role.contribution))
          = (keyed.map fun role => (personOf display role.key, role.contribution)).map
              (roleIn names) := by
      intro names
      rw [List.map_map]
      rfl
    rw [hroles]
    apply appearances_map_roleIn
    intro appearance happearance
    obtain ⟨role, hrole, rfl⟩ := List.mem_map.1 happearance
    exact mem_register.2 (.inr (List.mem_map.2 ⟨role, hrole, rfl⟩))
  · rw [if_neg heq, if_neg heq]
    exact appearances_extended (prefix_register _ _) (h.roles other)

/-- One more department of the old layout is told. -/
theorem Told.loadKeyedRoles {record fields : Json.Fields} {finished : List Department} {c : Crew}
    (h : Told fields (peopleOf record) finished c) {display : SortedMap String}
    (hdisplay : displayNames (record.get? "people") = .ok display) (department : Department) :
    (loadKeyedRoles display fields department c).Ensures
      (Told fields (peopleOf record) (department :: finished)) := by
  have hkeyed := ensures_itemsUnder (loadScalar_present _ _ default)
    (ensures_keyedRole hdisplay (itemsUnder fields "names") default) fields department.name
  refine ensures_withKeyed hkeyed fun keyed hkeyed => ?_
  refine ⟨attached_withKeyed display department h.1 keyed, fun other hother => ?_⟩
  rw [attributions_withKeyed display department h.1]
  by_cases heq : department = other
  · rw [if_pos heq, ← heq]
    exact List.forall₂_map_right_iff.2 hkeyed
  · rw [if_neg heq]
    exact h.2 other ((List.mem_cons.1 hother).resolve_left fun hsame => heq hsame.symm)

/-- **The old layout is read as it is told.** -/
theorem told_loadLegacyFields (record fields : Json.Fields) (old : Crew) :
    (loadLegacyFields old fields (record.get? "people")).Ensures
      (Told fields (peopleOf record) Department.all) := by
  unfold loadLegacyFields
  cases hdisplay : displayNames (record.get? "people") with
  | error error => exact ensures_failed
  | ok display =>
    have hstart : (done empty .absent).Ensures (Told fields (peopleOf record) []) :=
      ensures_done ⟨normal_empty.attached, by simp⟩
    have hdirectors := ensures_andThen hstart fun c hc => hc.loadKeyedRoles hdisplay .directors
    have hwriters := ensures_andThen hdirectors fun c hc => hc.loadKeyedRoles hdisplay .writers
    have hcast := ensures_andThen hwriters fun c hc => hc.loadKeyedRoles hdisplay .cast
    refine hcast.imp fun c hc => ⟨hc.1, fun department _ => ?_⟩
    exact hc.2 department (by cases department <;> decide)

/-! ## §6. The crew of a record. -/

/-- **What was told stays through the repairs.** -/
theorem ensures_asDescribed_repairs {fields people : Json.Fields} {loaded : Loaded Crew}
    (h : loaded.Ensures (Told fields people Department.all)) :
    ((loaded.andThen removePlaceholders).andThen canonicalize).Ensures
      (AsDescribed fields people) := by
  -- The first repair leaves a crew whose attributions are some of those that were told.
  have hcleared : (loaded.andThen removePlaceholders).Ensures fun d =>
      (d.Attached ∧ ∀ person ∈ d.names, ¬ isPlaceholder person.name) ∧
        ∃ c, Told fields people Department.all c ∧
          ∀ department, d.attributions department = (c.attributions department).filter isNamed := by
    refine ensures_andThen h fun c hc => ?_
    have hattached := ensures_removePlaceholders (P := Attached)
      (fun d index hindex => attached_removePerson hindex) hc.1
    have hkept := ensures_attributions_removePlaceholders c
    exact hattached.and (hkept.imp fun d hd => ⟨c, hc, hd⟩)
  refine ensures_andThen hcleared fun d hd => ensures_canonicalize fun department => ?_
  obtain ⟨⟨hattached, hnamed⟩, c, hc, hkept⟩ := hd
  have hnormal : d.renumbered.Normal := normal_renumbered hattached hnamed
  refine ⟨c.attributions department, hc.2 department (by cases department <;> decide), ?_⟩
  rw [resolved_eq hnormal.attached, attributions_renumbered hattached, hkept, List.map_map]
  rfl

/-- **A load keeps who did what**, in either layout: whatever was held before, a
load that succeeds leaves the crew that the document describes. -/
theorem asDescribed_loadFromRecord {record : Json.Fields} {node : Json}
    (hcrew : record.get? "crew" = some node) (hnode : node ≠ .null) {old : Crew} {outcome : Outcome}
    (hloaded : (loadFromRecord record old).result = .ok outcome) :
    ∃ fields, node = .object fields ∧
      AsDescribed fields (peopleOf record) (loadFromRecord record old).value := by
  unfold loadFromRecord at hloaded ⊢
  rw [hcrew] at hloaded ⊢
  cases node with
  | null => exact absurd rfl hnode
  | object fields =>
    refine ⟨fields, rfl, ?_⟩
    -- The layout decides how the lists are read; the repairs are the same.
    by_cases hlegacy : isLegacy fields = true
    · simp only [if_pos hlegacy] at hloaded ⊢
      have hread : (((loadLegacyFields old fields (record.get? "people")).under "crew").andThen
          fun c => .repaired c "Old-style crew found").Ensures
            (Told fields (peopleOf record) Department.all) :=
        (ensures_under (told_loadLegacyFields record fields old)).andThen
          fun c hc => ensures_repaired hc
      exact ensures_asDescribed_repairs hread outcome hloaded
    · simp only [if_neg hlegacy] at hloaded ⊢
      have hread := told_loadFields fields (peopleOf record)
      exact ensures_under (ensures_asDescribed_repairs hread) outcome hloaded
  | _ => cases hloaded

/-- A crew whose list of names has a gap that all later indices close. -/
def gappedFields : Json.Fields :=
  [("cast", .array [.array [.ofInt 2, .string "Ripley"], .ofInt 1, .array [.ofInt 3, .string ""]]),
    ("directors", .array [.ofInt 3]),
    ("names", .array [.string "", .string "N/A", .string "Sigourney Weaver",
      .array [.string "Ridley Scott", .string "imdb:7", .string "filmweb:1"]]),
    ("writers", .array [.ofInt 0])]

/-- A crew of the old layout: one key has a name, one has an empty one, and one
is a placeholder. -/
def keyedFields : Json.Fields :=
  [("cast", .array [.array [.string "sigourney", .string "Ripley"], .string "N/A", .string "Tom"])]

/-- The names of its keys. -/
def keyedPeople : Json.Fields := [("Tom", .string ""), ("sigourney", .string "Sigourney Weaver")]

theorem asDescribed_gapped_and_keyed :
    (loadFromRecord [("crew", .object gappedFields)] empty).result = .ok .updated ∧
    (loadFromRecord [("crew", .object gappedFields)] empty).value.resolved .cast
      = [(some ⟨"Sigourney Weaver", []⟩, some "Ripley"),
          (some ⟨"Ridley Scott", ["filmweb:1", "imdb:7"]⟩, none)] ∧
    (∃ fields, Json.object gappedFields = .object fields ∧ AsDescribed fields []
      (loadFromRecord [("crew", .object gappedFields)] empty).value) ∧
    (loadFromRecord [("crew", .object keyedFields), ("people", .object keyedPeople)] empty).result
      = .ok .updated ∧
    (loadFromRecord [("crew", .object keyedFields), ("people", .object keyedPeople)]
        empty).value.resolved .cast
      = [(some ⟨"Sigourney Weaver", ["sigourney"]⟩, some "Ripley"), (some ⟨"Tom", []⟩, none)] ∧
    (∃ fields, Json.object keyedFields = .object fields ∧ AsDescribed fields keyedPeople
      (loadFromRecord [("crew", .object keyedFields), ("people", .object keyedPeople)]
        empty).value) := by
  have hgapped : (loadFromRecord [("crew", .object gappedFields)] empty).result = .ok .updated := by
    decide +kernel
  have hkeyed : (loadFromRecord [("crew", .object keyedFields), ("people", .object keyedPeople)]
      empty).result = .ok .updated := by decide +kernel
  refine ⟨hgapped, by decide +kernel, ?_, hkeyed, by decide +kernel, ?_⟩
  · exact asDescribed_loadFromRecord rfl (by intro h; cases h) hgapped
  · exact asDescribed_loadFromRecord rfl (by intro h; cases h) hkeyed

end FilmCatalog.Crew
