/-
  FilmCatalog.Crew.Basic
  ──────────────────────
  **WHO MADE A FILM.**

  The people of a film stand in one list of names, and the roles in three
  lists (directors, writers, cast) point into it by index.  A role that
  points at nobody is *dangling*.

  A person has references into other catalogues, written `key` or
  `key:value`; one value per key counts, the last (`refMap`), and
  `canonical` writes the references in key order, one per key.
-/
import FilmCatalog.SortedMap
import FilmCatalog.Text.Parts

namespace FilmCatalog

/-! ## §1. People. -/

/-- A person, with references into other catalogues. -/
structure Person where
  name : String
  refs : List String
  deriving DecidableEq, Repr

namespace Person

instance : Inhabited Person := ⟨⟨"", []⟩⟩

/-- By name, then by references. -/
instance : Ord Person where
  compare a b := (compare a.name b.name).then (compare a.refs b.refs)

/-- A person without references. -/
def named (name : String) : Person := ⟨name, []⟩

/-- Key and value of a reference; a bare key has an empty value. -/
def splitRef (ref : String) : String × String :=
  match Text.cutFirst ':' ref with
  | some parts => parts
  | none => (ref, "")

/-- The reference with a key and a value. -/
def joinRef (key value : String) : String :=
  if value = "" then key else key ++ ":" ++ value

/-- The references by key; of several under one key the last counts. -/
def refMap (p : Person) : SortedMap String := .ofList (p.refs.map splitRef)

/-- The person with a name and references by key. -/
def ofRefMap (name : String) (refs : SortedMap String) : Person :=
  ⟨name, refs.entries.map fun entry => joinRef entry.1 entry.2⟩

/-- The same person with references in key order, one per key. -/
def canonical (p : Person) : Person := ofRefMap p.name p.refMap

end Person

/-! ## §2. Roles. -/

/-- A role of a person, by the person's index. -/
structure Role where
  id : Int
  /-- What the person contributed, or the part that was played. -/
  contribution : Option String
  deriving DecidableEq, Repr

namespace Role

instance : Inhabited Role := ⟨⟨0, none⟩⟩

end Role

/-- The lists of roles. -/
inductive Department where
  | directors | writers | cast
  deriving DecidableEq, Repr

namespace Department

/-- The departments in the order in which they are visited. -/
def all : List Department := [.directors, .writers, .cast]

/-- The name of a department in documents. -/
def name : Department → String
  | .directors => "directors"
  | .writers => "writers"
  | .cast => "cast"

end Department

/-! ## §3. The crew. -/

/-- The roles of a film and the people they point at. -/
structure Crew where
  directors : List Role
  writers : List Role
  cast : List Role
  names : List Person
  deriving DecidableEq, Repr

namespace Crew

/-- Nobody. -/
def empty : Crew := ⟨[], [], [], []⟩

instance : Inhabited Crew := ⟨empty⟩

/-- Whether there is neither a role nor a name. -/
def isEmpty (c : Crew) : Bool :=
  c.directors.isEmpty && c.writers.isEmpty && c.cast.isEmpty && c.names.isEmpty

/-- The roles of a department. -/
def roles (c : Crew) : Department → List Role
  | .directors => c.directors
  | .writers => c.writers
  | .cast => c.cast

/-- Replaces the roles of a department. -/
def setRoles (c : Crew) (roles : List Role) : Department → Crew
  | .directors => { c with directors := roles }
  | .writers => { c with writers := roles }
  | .cast => { c with cast := roles }

/-- Changes the roles of every department. -/
def mapRoles (f : List Role → List Role) (c : Crew) : Crew :=
  { c with directors := f c.directors, writers := f c.writers, cast := f c.cast }

/-- The person at an index. -/
def personAt? (names : List Person) (id : Int) : Option Person :=
  if 0 ≤ id then names[id.toNat]? else none

/-- The first role of a list that points outside of `names`. -/
def firstDangling? (names : List Person) (roles : List Role) : Option Role :=
  roles.find? fun role => (personAt? names role.id).isNone

/-- The first dangling role, department by department. -/
def dangling? (c : Crew) : Option (Department × Int) :=
  Department.all.findSome? fun department =>
    (firstDangling? c.names (c.roles department)).map fun role => (department, role.id)

end Crew

end FilmCatalog
