/-
  FilmCatalog.Merge.Crew
  ──────────────────────
  **MERGING CREWS.**

  Two crews number their people each in its own way.  So every role is
  turned into a *credit*, which carries the person along, the credits of a
  department are merged by name, and the people are numbered anew.  A role
  without a person cannot be turned into a credit and stops the merge.

  `merge` gives the merged crew as a new value, and `mergeInPlace` writes it
  over the one that is held.
-/
import FilmCatalog.Crew.Cleanup
import FilmCatalog.Merge.Weave

namespace FilmCatalog

/-! ## §1. Credits. -/

/-- A role together with its person. -/
structure Credit where
  name : String
  refs : SortedMap String
  contribution : Option String
  deriving DecidableEq

namespace Credit

/-- The credit of a person. -/
def ofPerson (person : Person) (contribution : Option String) : Credit :=
  ⟨person.name, person.refMap, contribution⟩

/-- The person of a credit. -/
def person (c : Credit) : Person := .ofRefMap c.name c.refs

/-- The order of references: by key, then by value. -/
def compareRef (a b : String × String) : Ordering :=
  (compare a.1 b.1).then (compare a.2 b.2)

/-- By name, contribution and references. -/
instance : Ord Credit where
  compare a b :=
    (compare a.name b.name).then <|
      (compare a.contribution b.contribution).then <|
        List.compareLex compareRef a.refs.entries b.refs.entries

/-- The stored credit with what the incoming one adds: further references,
and its contribution if it has one. -/
def unite (stored incoming : Credit) : Credit where
  name := stored.name
  refs := incoming.refs.override stored.refs
  contribution := incoming.contribution.or stored.contribution

/-- Credits belong together when they name the same person. -/
def rule : WeaveRule Credit where
  le a b := (compare a b).isLE
  pairs a b := a.name ≠ "" && a.name = b.name
  unite stored incoming := (unite stored.1 incoming.1, stored.2)

end Credit

namespace Crew

/-! ## §2. From roles to credits and back. -/

/-- The credits of a list of roles. -/
def credits (department : Department) (names : List Person) :
    List Role → Except MergeError (List Credit)
  | [] => .ok []
  | role :: rest =>
      match personAt? names role.id with
      | none => .error (.danglingRole department.name role.id names.length)
      | some person => (credits department names rest).map (.ofPerson person role.contribution :: ·)

/-- Numbers the people of some credits, after those in `used`. -/
def numbered : List Person → List Credit → List Role × List Person
  | used, [] => ([], used)
  | used, credit :: rest =>
      let (roles, final) := numbered (addName used credit.person) rest
      (⟨indexOf used credit.person, credit.contribution⟩ :: roles, final)

/-! ## §3. The merge. -/

/-- The merged credits of a department. -/
def mergeCredits (stored incoming : Crew) (department : Department) :
    Except MergeError (List Credit) := do
  let older ← credits department stored.names (stored.roles department)
  let newer ← credits department incoming.names (incoming.roles department)
  return Credit.rule.mergeLists older newer

/-- The crew of the credits of its departments. -/
def ofCredits (directors writers cast : List Credit) : Crew :=
  let (directors, used) := numbered [] directors
  let (writers, used) := numbered used writers
  let (cast, used) := numbered used cast
  ⟨directors, writers, cast, used⟩

/-- Merges two crews. -/
def merge (stored incoming : Crew) : Except MergeError (Merged Crew) := do
  let directors ← mergeCredits stored incoming .directors
  let writers ← mergeCredits stored incoming .writers
  let cast ← mergeCredits stored incoming .cast
  return .replace stored (ofCredits directors writers cast)

/-! ## §4. The merge in place. -/

/-- The merged roles of some departments, numbered one after the other behind
the people in `used`. -/
def mergedRoles (stored incoming : Crew) (used : List Person) :
    List Department → Except MergeError (List (Department × List Role) × List Person)
  | [] => .ok ([], used)
  | department :: rest => do
      let credits ← mergeCredits stored incoming department
      let (roles, used) := numbered used credits
      let (others, used) ← mergedRoles stored incoming used rest
      return ((department, roles) :: others, used)

/-- Writes the roles of a department, unless they are there already. -/
def writeRoles (department : Department) (roles : List Role) : StateM Crew Outcome := do
  if (← get).roles department = roles then return .unchanged
  modify fun c => c.setRoles roles department
  return .updated

/-- Writes the names, unless they are there already. -/
def writeNames (names : List Person) : StateM Crew Outcome := do
  if (← get).names = names then return .unchanged
  modify fun c => { c with names }
  return .updated

/-- Writes the roles of some departments, then the names. -/
def writeAll : List (Department × List Role) → List Person → StateM Crew Outcome
  | [], names => writeNames names
  | (department, roles) :: rest, names => do
      let first ← writeRoles department roles
      let others ← writeAll rest names
      return first.absorb others

/-- Merges a crew into the one that is held.  All departments are merged
before the first of them is written. -/
def mergeInPlace (incoming : Crew) : ExceptT MergeError (StateM Crew) Outcome := do
  let stored ← get
  let (lists, names) ← mergedRoles stored incoming [] Department.all
  writeAll lists names

end Crew

end FilmCatalog
