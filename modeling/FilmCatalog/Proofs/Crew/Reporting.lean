/-
  FilmCatalog.Proofs.Crew.Reporting
  ─────────────────────────────────
  **WHAT THE LOAD OF A CREW TELLS.**

  The keys of an error lead to its cause, with two exceptions, both in a crew:

    • `PeopleAstray` — the names of the old layout stand next to the crew, under
      `people`, but the error puts them into the crew, where there is no such
      part;
    • `PersonAstray` — a person in the form of a list has an item of the wrong
      kind, and the error reports the kind of the item, but its keys end at the
      person.

  So every error of a crew points at its cause or goes astray in one of these
  two ways (`candid_loadFromRecord`).
-/
import FilmCatalog.Crew.Load
import FilmCatalog.Proofs.Reporting

namespace FilmCatalog

open Loaded

/-! ## §1. Errors that go astray. -/

namespace LoadError

/-- The error is about an item of the list that its keys lead to, and the item
is no list. -/
def Inside (error : LoadError) (node : Json) : Prop :=
  ∃ items item, node.follow? error.keys = some (.array items) ∧ item ∈ items ∧
    item.kind ≠ .array ∧ error.root = .unexpected Person.expected item

/-- An error inside of a part is inside of the whole. -/
theorem Inside.field {error : LoadError} {node child : Json} {key : String}
    (h : error.Inside child) (hchild : node.child? key = some child) :
    (LoadError.field key error).Inside node := by
  obtain ⟨items, item, hfollow, hitem⟩ := h
  exact ⟨items, item, (Json.follow?_cons hchild error.keys).trans hfollow, hitem⟩

/-- The keys lead along `names` to a list of people and end at one of them, one
step before the cause. -/
def PersonAstray (error : LoadError) (names : List String) (node : Json) : Prop :=
  (∃ index, error.keys = names ++ [index]) ∧ error.Inside node

/-- A key more in front of an error that lost its way in a person. -/
theorem PersonAstray.field {error : LoadError} {names : List String} {node child : Json}
    {key : String} (h : error.PersonAstray names child) (hchild : node.child? key = some child) :
    (LoadError.field key error).PersonAstray (key :: names) node := by
  obtain ⟨⟨index, hkeys⟩, hinside⟩ := h
  exact ⟨⟨index, congrArg (key :: ·) hkeys⟩, hinside.field hchild⟩

/-- The cause is the property `people` of the document; the keys lead into the
crew instead, where there is no such part of that kind. -/
def PeopleAstray (error : LoadError) (document : Json) : Prop :=
  ∃ people, document.child? "people" = some people ∧
    error = .field "crew" (.field "people" (.unexpected "object" people)) ∧
    ∀ other, document.follow? ["crew", "people"] = some other → other.kind ≠ people.kind

/-- The error points at its cause, or it is one of the two kinds that do not. -/
def Placed (error : LoadError) (document : Json) : Prop :=
  error.Points document ∨ error.PeopleAstray document ∨
    error.PersonAstray ["crew", "names"] document

/-- The people of the old layout are reported as if they stood in the crew. -/
theorem placed_people {document people : Json} (h : document.child? "people" = some people) :
    (LoadError.field "crew" (.field "people" (.unexpected "object" people))).Placed document := by
  by_cases hother : ∃ other, document.follow? ["crew", "people"] = some other ∧
      other.kind = people.kind
  · -- The crew happens to have a part of that name and kind.
    obtain ⟨other, hfollow, hkind⟩ := hother
    refine .inl ⟨other, hfollow, fun expected found hshape => ?_⟩
    cases hshape
    exact hkind
  · exact .inr (.inl ⟨people, h, rfl, fun other hfollow hkind => hother ⟨other, hfollow, hkind⟩⟩)

/-- An error that points lost its way in no person. -/
theorem Points.not_personAstray {error : LoadError} {node : Json} (h : error.Points node)
    (names : List String) : ¬ error.PersonAstray names node := by
  rintro ⟨_, items, item, hitems, _, hkind, hroot⟩
  obtain ⟨target, htarget, hfound⟩ := h
  rw [hitems] at htarget
  cases htarget
  exact hkind (hfound _ _ hroot).symm

/-- An error that points does not take the people for a part of the crew. -/
theorem Points.not_peopleAstray {error : LoadError} {document : Json} (h : error.Points document) :
    ¬ error.PeopleAstray document := by
  rintro ⟨people, _, rfl, hnone⟩
  obtain ⟨target, htarget, hfound⟩ := h
  exact hnone target htarget (hfound _ _ rfl)

end LoadError

open LoadError

/-! ## §2. Roles and people. -/

theorem Role.tells_load : Tells Role.load := tells_loadScalar _ _

theorem Crew.KeyedRole.tells_load : Tells Crew.KeyedRole.load := tells_loadScalar _ _

/-- The item that is no text is one of the items. -/
theorem Person.mem_of_textsOf {items : List Json} {item : Json} (h : textsOf items = .error item) :
    item ∈ items := by
  fun_induction textsOf items with
  | case1 => cases h
  | case2 text rest ih =>
    cases hrest : textsOf rest with
    | error other =>
      rw [hrest] at h
      cases h
      exact List.mem_cons_of_mem _ (ih hrest)
    | ok texts =>
      rw [hrest] at h
      cases h
  | case3 =>
    cases h
    exact List.mem_cons_self

/-- An error about an item of a list, told at the list. -/
theorem Person.points_or_inside {items : List Json} {item : Json} (h : item ∈ items) :
    (unexpected expected item).Points (.array items) ∨
      (unexpected expected item).Inside (.array items) := by
  by_cases hkind : item.kind = .array
  · refine .inl ⟨.array items, rfl, fun _ found hshape => ?_⟩
    cases hshape
    exact hkind.symm
  · exact .inr ⟨items, item, rfl, h, hkind, rfl⟩

/-- The error of a person may stand inside of the person without a key to it. -/
theorem Person.candid_load (old : Person) (node : Json) :
    (load old node).Candid fun error =>
      error.Points node ∨ error.keys = [] ∧ error.Inside node := by
  have hitem : ∀ items item, item ∈ items → node = .array items →
      (unexpected expected item).Points node ∨
        (unexpected expected item).keys = [] ∧ (unexpected expected item).Inside node := by
    rintro items item hmem rfl
    exact (points_or_inside hmem).imp_right fun hinside => ⟨rfl, hinside⟩
  have hnode : (unexpected expected node).Points node := points_unexpected expected node
  unfold load
  split
  · exact candid_done _ Outcome.noConfusion
  · exact candid_failed old (.inl hnode)
  · rename_i name items
    split
    · exact candid_done _ Outcome.noConfusion
    · rename_i item htexts
      exact candid_failed _
        (hitem _ item (List.mem_cons_of_mem _ (mem_of_textsOf htexts)) rfl)
  · exact candid_failed old (hitem _ _ List.mem_cons_self rfl)
  · exact candid_failed old (.inl hnode)

namespace Crew

/-! ## §3. Repairs. -/

variable {P : LoadError → Prop}

/-- Placeholders are removed with a note, or there are none. -/
theorem candid_removePlaceholders (c : Crew) : c.removePlaceholders.Candid P := by
  have hnoted : ∀ test note (c : Crew), (c.removeNoted test note).Candid P := by
    intro test note c
    unfold removeNoted
    split
    · exact candid_repaired _ note
    · exact candid_done c Outcome.noConfusion
  exact (hnoted _ _ c).andThen (hnoted _ _)

/-- Names are numbered anew with a note, or they were in order. -/
theorem candid_canonicalize (c : Crew) : c.canonicalize.Candid P := by
  simp only [canonicalize]
  split
  · exact candid_done _ Outcome.noConfusion
  · exact candid_repaired _ _

/-- A dangling role is reported at the crew as a whole. -/
theorem candid_checkRoles (c : Crew) (node : Json) :
    c.checkRoles.Candid fun error => error.Points node := by
  unfold checkRoles validate
  cases c.dangling? with
  | none => exact candid_done c Outcome.noConfusion
  | some found => exact candid_failed c (points_danglingRole _ _ _ node)

/-! ## §4. Both layouts. -/

theorem candid_loadRoles (fields : Json.Fields) (department : Department) (c : Crew) :
    (loadRoles fields department c).Candid fun error => error.Points (.object fields) :=
  ((Role.tells_load.list default).field fields department.name (c.roles department)).into _

/-- People are the one part of a crew whose errors may lose their way. -/
theorem candid_loadNames (fields : Json.Fields) (old : List Person) :
    (loadField (loadList Person.load default) fields "names" old).Candid fun error =>
      error.Points (.object fields) ∨ error.PersonAstray ["names"] (.object fields) := by
  refine candid_loadField fun names hnames => ?_
  refine candid_loadList (.inl ((points_unexpected "array" names).field hnames)) ?_
  rintro items rfl index item hitem
  have hchild := Json.child?_array hitem
  refine (Person.candid_load default item).imp fun error herror => ?_
  rcases herror with hpoints | ⟨hkeys, hinside⟩
  · exact .inl ((hpoints.field hchild).field hnames)
  · -- The keys within the list are the index of the person alone.
    have hperson : (LoadError.field (Nat.repr index) error).PersonAstray [] (.array items) :=
      ⟨⟨Nat.repr index, congrArg (Nat.repr index :: ·) hkeys⟩, hinside.field hchild⟩
    exact .inr (hperson.field hnames)

/-- **A crew of the new layout tells of itself**, its people apart. -/
theorem candid_load (old : Crew) (fields : Json.Fields) :
    (load old (.object fields)).Candid fun error =>
      error.Points (.object fields) ∨ error.PersonAstray ["names"] (.object fields) := by
  have hroles : ∀ department c, (loadRoles fields department c).Candid fun error =>
      error.Points (.object fields) ∨ error.PersonAstray ["names"] (.object fields) :=
    fun department c => (candid_loadRoles fields department c).imp fun _ => .inl
  refine candid_withFields (.inl (points_unexpected "object" _)) ?_
  rintro _ ⟨⟩
  refine Candid.andThen (Candid.andThen (Candid.andThen ?_ fun c => ?_) candid_removePlaceholders)
    candid_canonicalize
  · unfold loadFields
    refine (candid_done empty Outcome.noConfusion).andThen (hroles .directors)
      |>.andThen (hroles .writers) |>.andThen (hroles .cast) |>.andThen fun c => ?_
    exact (candid_loadNames fields c.names).into _
  · exact (candid_checkRoles c _).imp fun _ => .inl

/-- Roles by key are loaded from the list of their department. -/
theorem candid_loadKeyedRoles (display : SortedMap String) (fields : Json.Fields)
    (department : Department) (c : Crew) :
    (loadKeyedRoles display fields department c).Candid fun error =>
      error.Points (.object fields) := by
  have hkeys := (KeyedRole.tells_load.list default).field fields department.name []
  simp only [loadKeyedRoles]
  split <;> exact hkeys.into _

/-- In the old layout an error is about the names in `people` or about a role. -/
theorem candid_loadLegacyFields (old : Crew) (fields : Json.Fields) (people : Option Json) :
    (loadLegacyFields old fields people).Candid fun error =>
      error.Points (.object fields) ∨
        ∃ node, people = some node ∧ error = .field "people" (.unexpected "object" node) := by
  have hroles : ∀ display department c, (loadKeyedRoles display fields department c).Candid
      fun error => error.Points (.object fields) ∨
        ∃ node, people = some node ∧ error = .field "people" (.unexpected "object" node) :=
    fun display department c =>
      (candid_loadKeyedRoles display fields department c).imp fun _ => .inl
  unfold loadLegacyFields
  split
  · rename_i error herror
    refine candid_failed old (.inr ?_)
    unfold displayNames at herror
    split at herror
    · cases herror
    · cases herror
    · cases herror
    · cases herror
      exact ⟨_, rfl, rfl⟩
  · rename_i display _
    exact (candid_done empty Outcome.noConfusion).andThen (hroles display .directors)
      |>.andThen (hroles display .writers) |>.andThen (hroles display .cast)

/-- **The crew of a record tells of itself**: it notes its updates, and an error
points at its cause or goes astray in one of the two ways. -/
theorem candid_loadFromRecord (record : Json.Fields) (old : Crew) :
    (loadFromRecord record old).Candid fun error => error.Placed (.object record) := by
  unfold loadFromRecord
  split
  · exact candid_done old Outcome.noConfusion
  · exact candid_done old Outcome.noConfusion
  · rename_i fields hcrew
    have hchild : (Json.object record).child? "crew" = some (.object fields) := hcrew
    split
    · have hlegacy : ((loadLegacyFields old fields (record.get? "people")).under "crew").Candid
          fun error => error.Placed (.object record) := by
        refine candid_under ((candid_loadLegacyFields old fields _).imp fun error herror => ?_)
        rcases herror with hpoints | ⟨people, hpeople, rfl⟩
        · exact .inl (hpoints.field hchild)
        · exact placed_people hpeople
      exact hlegacy.andThen (fun c => candid_repaired c _) |>.andThen candid_removePlaceholders
        |>.andThen candid_canonicalize
    · refine candid_under ((candid_load old fields).imp fun error herror => ?_)
      rcases herror with hpoints | hperson
      · exact .inl (hpoints.field hchild)
      · exact .inr (.inr (hperson.field hchild))
  · rename_i node _ _ hcrew
    exact candid_failed old (.inl ((points_unexpected "object" node).field hcrew))

end Crew

end FilmCatalog
