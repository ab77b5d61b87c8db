/-
  FilmCatalog.Load.Basic
  ──────────────────────
  **LOADING VALUES FROM DOCUMENTS.**

  A loader takes the value held so far and a node, and gives a `Loaded`: the
  value held afterwards, the notes it left, and either its outcome or the
  error that stopped it.  A value is there after a failure too, with
  whatever had been read by then.

  Steps are put in sequence by `andThen`: it stops at the first error,
  strings the notes together and absorbs the outcomes.  Everything a loader
  does is `andThen` over fields, items and languages.
-/
import FilmCatalog.Load.Error
import FilmCatalog.Outcome

namespace FilmCatalog

/-! ## §1. Results of a load. -/

/-- What a load leaves behind. -/
structure Loaded (α : Type) where
  /-- The value held afterwards. -/
  value : α
  /-- The notes of this load. -/
  notes : Notes
  /-- The outcome, or why the load stopped. -/
  result : Except LoadError Outcome

/-- A loader: from the value held so far and a node to what is left. -/
abbrev Loader (α : Type) := α → Json → Loaded α

namespace Loaded

variable {α β : Type}

/-- A load that succeeds without a note. -/
def done (value : α) (outcome : Outcome) : Loaded α := ⟨value, [], .ok outcome⟩

/-- A load that fails and leaves `value`. -/
def failed (value : α) (error : LoadError) : Loaded α := ⟨value, [], .error error⟩

/-- A load that repaired something and says so. -/
def repaired (value : α) (note : String) : Loaded α := ⟨value, [note], .ok .updated⟩

/-- One step after another. -/
def andThen (first : Loaded α) (next : α → Loaded α) : Loaded α :=
  match first.result with
  | .error _ => first
  | .ok outcome =>
      let second := next first.value
      { value := second.value
        notes := first.notes ++ second.notes
        result := second.result.map outcome.absorb }

/-- A load of a part, as a load of the whole. -/
def into (loaded : Loaded α) (place : α → β) : Loaded β :=
  { loaded with value := place loaded.value }

/-- Names the property that was loaded, in case of an error. -/
def under (loaded : Loaded α) (key : String) : Loaded α :=
  { loaded with result := loaded.result.mapError (.field key) }

/-- Keeps the outcome to itself. -/
def withoutOutcome (loaded : Loaded α) : Loaded α :=
  { loaded with result := loaded.result.map fun _ => .absent }

end Loaded

/-! ## §2. Scalars. -/

/-- A loader of a scalar: all or nothing. -/
def loadScalar {α : Type} (expected : String) (read : Json → Option α) : Loader α :=
  fun old node =>
    match read node with
    | some value => .done value .unchanged
    | none => .failed old (.unexpected expected node)

/-- Loads a text. -/
def loadText : Loader String := loadScalar "string" Json.toText?

/-- Loads a truth value. -/
def loadBool : Loader Bool :=
  loadScalar "bool" fun
    | .bool value => some value
    | _ => none

/-- Loads an integer. -/
def loadInt : Loader Int := loadScalar "integer" Json.toInt?

/-- Loads a natural of 32 bits. -/
def loadUInt32 : Loader UInt32 := loadScalar "unsigned integer" Json.toUInt32?

/-- The fields of a node, for values that are stored as objects. -/
def withFields {α : Type} (old : α) (node : Json) (load : Json.Fields → Loaded α) : Loaded α :=
  match node with
  | .object fields => load fields
  | _ => .failed old (.unexpected "object" node)

/-! ## §3. Fields. -/

section Fields

variable {α : Type} (load : Loader α)

/-- Loads the field under `key`; a missing or null one leaves the value as it
is. -/
def loadField (fields : Json.Fields) (key : String) (old : α) : Loaded α :=
  match fields.get? key with
  | none => .done old .absent
  | some .null => .done old .absent
  | some node => (load old node).under key

/-- Loads the field under `key` as an optional value, from the value `fresh`;
an error leaves what was held. -/
def loadOptional (fresh : α) (fields : Json.Fields) (key : String) (old : Option α) :
    Loaded (Option α) :=
  let loaded := loadField load fields key fresh
  match loaded.result with
  | .error _ => loaded.into fun _ => old
  | .ok .absent => loaded.into fun _ => none
  | .ok _ => loaded.into some

/-! ## §4. Lists. -/

/-- Loads the items of a list, counted from `index`, each from the value
`fresh`; absent items are left out. -/
def loadItems (fresh : α) : Nat → List Json → Loaded (List α)
  | _, [] => .done [] .unchanged
  | index, node :: rest =>
      let item := (load fresh node).under (Nat.repr index)
      match item.result with
      | .error _ => item.into fun _ => []
      | .ok outcome =>
          let others := loadItems fresh (index + 1) rest
          { value := if outcome = .absent then others.value else item.value :: others.value
            notes := item.notes ++ others.notes
            result := others.result.map outcome.absorb }

/-- Loads a list. -/
def loadList (fresh : α) : Loader (List α) := fun old node =>
  match node with
  | .array items => loadItems load fresh 0 items
  | _ => .failed old (.unexpected "array" node)

end Fields

/-- Loads a list of texts. -/
def loadTexts : Loader (List String) := loadList loadText ""

/-- Loads a list of texts that may be stored as a single one; an empty single
text stands for the empty list. -/
def loadTextsOrText (fields : Json.Fields) (key : String) (old : List String) :
    Loaded (List String) :=
  match fields.get? key with
  | some (.string text) =>
      if text = "" then .repaired [] ("Empty " ++ key ++ " string found")
      else .done [text] .unchanged
  | _ => loadField loadTexts fields key old

/-! ## §5. Storing. -/

/-- An optional value; nothing is stored for a missing one. -/
def storeOptional {α : Type} (store : α → Json) : Option α → Json
  | none => .null
  | some value => store value

/-- A list; nothing is stored for an empty one. -/
def storeList {α : Type} (store : α → Json) (items : List α) : Json :=
  if items.isEmpty then .null else .array (items.map store)

/-- A list of texts. -/
def storeTexts : List String → Json := storeList .string

/-- A natural of 32 bits. -/
def storeUInt32 (n : UInt32) : Json := .ofInt n.toNat

/-- The fields that have something to store. -/
def storedFields (fields : List (String × Json)) : List (String × Json) :=
  fields.filter fun field => !field.2.isNull

/-- An object of the fields that have something to store; nothing is stored
if there is none. -/
def storeFields (fields : List (String × Json)) : Json :=
  if (storedFields fields).isEmpty then .null else .ofFields (storedFields fields)

end FilmCatalog
