/-
  FilmCatalog.Crew.Load
  ─────────────────────
  **CREWS IN DOCUMENTS.**

  In today's layout a role is an index into the list of names, or an index
  with a contribution.  In the old layout roles hold keys of people, and a
  property `people` next to the crew gives the names of those keys.  Both are
  read, checked for dangling roles, and repaired.
-/
import FilmCatalog.Crew.Cleanup

namespace FilmCatalog

/-- No contribution is the same as an empty one. -/
def nonEmpty? (text : String) : Option String := if text = "" then none else some text

/-! ## §1. Roles and people. -/

namespace Role

/-- Loads a role from an index, or an index and a contribution. -/
def load : Loader Role :=
  loadScalar "integer or [integer, string]" fun node =>
    match node with
    | .array [id, .string contribution] =>
        id.toInt?.map fun id => ⟨id, nonEmpty? contribution⟩
    | _ => node.toInt?.map fun id => ⟨id, none⟩

/-- A role as an index, or as an index and a contribution. -/
def store (r : Role) : Json :=
  match r.contribution with
  | none => .ofInt r.id
  | some contribution => .array [.ofInt r.id, .string contribution]

end Role

namespace Person

/-- What the list form of a person should be. -/
def expected : String := "string or [string, ...]"

/-- The texts of some items, or the first item that is none. -/
def textsOf : List Json → Except Json (List String)
  | [] => .ok []
  | .string text :: rest => (textsOf rest).map (text :: ·)
  | item :: _ => .error item

/-- Loads a person from a name, or a name and references. -/
def load : Loader Person := fun old node =>
  match node with
  | .string name => .done (named name) .unchanged
  | .array [] => .failed old (.unexpected expected node)
  | .array (.string name :: items) =>
      match textsOf items with
      | .ok refs => .done ⟨name, refs⟩ .unchanged
      | .error item => .failed { old with name } (.unexpected expected item)
  | .array (item :: _) => .failed old (.unexpected expected item)
  | _ => .failed old (.unexpected expected node)

/-- A person as a name, or as a name and references. -/
def store (p : Person) : Json :=
  if p.refs.isEmpty then .string p.name else .array (.string p.name :: p.refs.map .string)

end Person

namespace Crew

/-! ## §2. Today's layout. -/

/-- Refuses a crew with a dangling role. -/
def validate (c : Crew) : Except LoadError Unit :=
  match c.dangling? with
  | some (department, id) => .error (.danglingRole department.name id c.names.length)
  | none => .ok ()

/-- The check for dangling roles, as a step of a load. -/
def checkRoles (c : Crew) : Loaded Crew :=
  match c.validate with
  | .error error => .failed c error
  | .ok () => .done c .absent

/-- Loads the roles of a department. -/
def loadRoles (fields : Json.Fields) (department : Department) (c : Crew) : Loaded Crew :=
  (loadField (loadList Role.load default) fields department.name (c.roles department)).into
    fun roles => c.setRoles roles department

/-- Loads the fields of a crew into an empty one. -/
def loadFields (fields : Json.Fields) : Loaded Crew :=
  Loaded.done empty .absent
    |>.andThen (loadRoles fields .directors)
    |>.andThen (loadRoles fields .writers)
    |>.andThen (loadRoles fields .cast)
    |>.andThen (fun c =>
      (loadField (loadList Person.load default) fields "names" c.names).into
        fun names => { c with names })

/-- Loads a crew in today's layout. -/
def load : Loader Crew := fun old node =>
  withFields old node fun fields =>
    (loadFields fields)
      |>.andThen checkRoles
      |>.andThen removePlaceholders
      |>.andThen canonicalize

/-- A crew as an object of its lists. -/
def store (c : Crew) : Json :=
  storeFields
    [ ("directors", storeList Role.store c.directors),
      ("writers", storeList Role.store c.writers),
      ("cast", storeList Role.store c.cast),
      ("names", storeList Person.store c.names) ]

/-! ## §3. The old layout. -/

/-- A role of the old layout. -/
structure KeyedRole where
  /-- The key of a person. -/
  key : String
  contribution : Option String
  deriving DecidableEq, Repr

instance : Inhabited KeyedRole := ⟨⟨"", none⟩⟩

/-- Loads a role of the old layout. -/
def KeyedRole.load : Loader KeyedRole :=
  loadScalar "string or [string, string]" fun
    | .string key => some ⟨key, none⟩
    | .array [.string key, .string contribution] => some ⟨key, nonEmpty? contribution⟩
    | _ => none

/-- Whether an item can only be a role of the old layout. -/
def isKeyedItem : Json → Bool
  | .string _ => true
  | .array (.string _ :: _) => true
  | _ => false

/-- Whether a crew is stored in the old layout. -/
def isLegacy (fields : Json.Fields) : Bool :=
  Department.all.any fun department =>
    match fields.get? department.name with
    | some (.array items) => items.any isKeyedItem
    | _ => false

/-- The names that the document gives to keys of people. -/
def displayNames : Option Json → Except LoadError (SortedMap String)
  | none => .ok .empty
  | some .null => .ok .empty
  | some (.object people) =>
      .ok (.ofList (people.filterMap fun (key, name) =>
        match name with
        | .string text => (nonEmpty? text).map fun text => (key, text)
        | _ => none))
  | some node => .error (.field "people" (.unexpected "object" node))

/-- The person behind a key. -/
def personOf (display : SortedMap String) (key : String) : Person :=
  match display.get? key with
  | some name => ⟨name, [key]⟩
  | none => .named key

/-- Turns keyed roles into roles, with the people they name. -/
def resolveKeys (display : SortedMap String) : List Person → List KeyedRole →
    List Role × List Person
  | names, [] => ([], names)
  | names, role :: rest =>
      let person := personOf display role.key
      let (roles, final) := resolveKeys display (addName names person) rest
      (⟨indexOf names person, role.contribution⟩ :: roles, final)

/-- Loads the keyed roles of a department. -/
def loadKeyedRoles (display : SortedMap String) (fields : Json.Fields) (department : Department)
    (c : Crew) : Loaded Crew :=
  let loaded := loadField (loadList KeyedRole.load default) fields department.name []
  match loaded.result with
  | .error _ => loaded.into fun _ => c
  | .ok _ =>
      let (roles, names) := resolveKeys display c.names loaded.value
      loaded.into fun _ => { c.setRoles roles department with names }

/-- Loads a crew in the old layout. -/
def loadLegacyFields (old : Crew) (fields : Json.Fields) (people : Option Json) : Loaded Crew :=
  match displayNames people with
  | .error error => .failed old error
  | .ok display =>
      Loaded.done empty .absent
        |>.andThen (loadKeyedRoles display fields .directors)
        |>.andThen (loadKeyedRoles display fields .writers)
        |>.andThen (loadKeyedRoles display fields .cast)

/-- Loads a crew in the old layout, and repairs it. -/
def loadLegacy (old : Crew) (fields : Json.Fields) (people : Option Json) : Loaded Crew :=
  ((loadLegacyFields old fields people).under "crew")
    |>.andThen (fun c => .repaired c "Old-style crew found")
    |>.andThen removePlaceholders
    |>.andThen canonicalize

/-! ## §4. The crew of a record. -/

/-- Loads the crew of a record, in either layout. -/
def loadFromRecord (record : Json.Fields) (old : Crew) : Loaded Crew :=
  match record.get? "crew" with
  | none => .done old .absent
  | some .null => .done old .absent
  | some (.object fields) =>
      if isLegacy fields then loadLegacy old fields (record.get? "people")
      else (load old (.object fields)).under "crew"
  | some node => .failed old (.field "crew" (.unexpected "object" node))

end Crew

end FilmCatalog
