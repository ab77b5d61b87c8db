/-
  FilmCatalog.Crew.Cleanup
  ────────────────────────
  **REPAIRS OF A CREW.**

  Two repairs follow every load of a crew:

      removePlaceholders  people named "N/A" or nothing at all go, with
                          their roles
      canonicalize        names are numbered anew in the order of their
                          first use, references in canonical form; equal
                          people share an entry and unused ones go
-/
import FilmCatalog.Crew.Basic
import FilmCatalog.Load.Basic

namespace FilmCatalog.Crew

/-! ## §1. Placeholders. -/

/-- Drops the roles of one person and closes the gap in the numbering. -/
def forgetId (id : Int) (roles : List Role) : List Role :=
  (roles.filter fun role => role.id ≠ id).map fun role =>
    if id < role.id then { role with id := role.id - 1 } else role

/-- Drops the person at an index with all roles. -/
def removePerson (c : Crew) (index : Nat) : Crew :=
  { c.mapRoles (forgetId index) with names := c.names.eraseIdx index }

/-- Drops every person whose name passes the test. -/
def removeNamed (test : String → Bool) (c : Crew) : Crew :=
  match _hfound : c.names.findIdx? fun person => test person.name with
  | none => c
  | some index => removeNamed test (c.removePerson index)
termination_by c.names.length
decreasing_by
  obtain ⟨hlt, _⟩ := List.findIdx?_eq_some_iff_getElem.1 _hfound
  simp only [removePerson, List.length_eraseIdx_of_lt hlt]
  omega

/-- Drops every person whose name passes the test, and notes it. -/
def removeNoted (test : String → Bool) (note : String) (c : Crew) : Loaded Crew :=
  if c.names.any fun person => test person.name then .repaired (c.removeNamed test) note
  else .done c .unchanged

/-- Drops the people who are only placeholders. -/
def removePlaceholders (c : Crew) : Loaded Crew :=
  (c.removeNoted (· = "N/A") "N/A found in the name list").andThen
    (removeNoted (· = "") "Unnamed person found in the name list")

/-! ## §2. Numbering. -/

/-- A list of names with a person in it. -/
def addName (names : List Person) (person : Person) : List Person :=
  if person ∈ names then names else names ++ [person]

/-- The index of a person in `addName names person`. -/
def indexOf (names : List Person) (person : Person) : Int := (names.idxOf person : Nat)

/-- Numbers the roles of a list anew: people are taken from `known` and
collected in `used`; dangling roles stay as they are. -/
def renumber (known : List Person) : List Person → List Role → List Role × List Person
  | used, [] => ([], used)
  | used, role :: rest =>
      match personAt? known role.id with
      | none =>
          let (roles, used) := renumber known used rest
          (role :: roles, used)
      | some person =>
          let (roles, final) := renumber known (addName used person) rest
          ({ role with id := indexOf used person } :: roles, final)

/-- The crew with names in canonical form and in the order of their first
use. -/
def renumbered (c : Crew) : Crew :=
  let known := c.names.map Person.canonical
  let (directors, used) := renumber known [] c.directors
  let (writers, used) := renumber known used c.writers
  let (cast, used) := renumber known used c.cast
  ⟨directors, writers, cast, used⟩

/-- Numbers the names anew, and notes it if that changed them. -/
def canonicalize (c : Crew) : Loaded Crew :=
  let fresh := c.renumbered
  if fresh.names = c.names then .done fresh .unchanged
  else .repaired fresh "Crew identities renumbered"

end FilmCatalog.Crew
