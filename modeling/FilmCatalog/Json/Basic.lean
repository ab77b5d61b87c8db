/-
  FilmCatalog.Json.Basic
  ──────────────────────
  **JSON VALUES.**

  Records, tables and settings are read from JSON documents and written back
  to them.  The fields of an object are an entry list in key order
  (`WellFormed`); `object` puts them in that order, and of two fields under
  one key the later counts.
-/
import FilmCatalog.Json.Number
import FilmCatalog.SortedMap

namespace FilmCatalog

/-! ## §1. Values and their kinds. -/

/-- A JSON value. -/
inductive Json where
  | null
  | bool (value : Bool)
  | number (value : Json.Number)
  | string (value : String)
  | array (items : List Json)
  | object (fields : List (String × Json))
  deriving Repr

instance : Inhabited Json := ⟨.null⟩

namespace Json

/-- The kinds of JSON values. -/
inductive Kind where
  | null | bool | number | string | array | object
  deriving DecidableEq, Repr

/-- The name of a kind, as error messages give it. -/
def Kind.name : Kind → String
  | .null => "null"
  | .bool => "bool"
  | .number => "number"
  | .string => "string"
  | .array => "array"
  | .object => "object"

/-- The kind of a value. -/
def kind : Json → Kind
  | .null => .null
  | .bool _ => .bool
  | .number _ => .number
  | .string _ => .string
  | .array _ => .array
  | .object _ => .object

/-! ## §2. Objects. -/

/-- The fields of an object. -/
abbrev Fields := List (String × Json)

/-- The field under `key`. -/
def Fields.get? (fields : Fields) (key : String) : Option Json := Entries.get? key fields

/-- Whether there is a field under `key`. -/
def Fields.contains (fields : Fields) (key : String) : Bool := (fields.get? key).isSome

/-- Puts a field into an object, in key order. -/
def Fields.put (fields : Fields) (key : String) (value : Json) : Fields :=
  Entries.insertEntry key value fields

/-- The object of a list of fields in any order; later fields replace
earlier ones. -/
def ofFields (fields : List (String × Json)) : Json :=
  .object (fields.foldl (fun all field => Fields.put all field.1 field.2) [])

mutual

/-- Every object in the value has its fields in strictly ascending key
order. -/
def WellFormed : Json → Prop
  | .array items => WellFormedItems items
  | .object fields => Entries.Ascending fields ∧ WellFormedFields fields
  | _ => True

/-- Every item is well formed. -/
def WellFormedItems : List Json → Prop
  | [] => True
  | item :: rest => item.WellFormed ∧ WellFormedItems rest

/-- Every field is well formed. -/
def WellFormedFields : List (String × Json) → Prop
  | [] => True
  | (_, value) :: rest => value.WellFormed ∧ WellFormedFields rest

end

/-! ## §3. Scalars. -/

/-- An integer as a value. -/
def ofInt (n : Int) : Json := .number (.integer n)

/-- The integer of a value, if it is one of 64 bits with sign. -/
def toInt? : Json → Option Int
  | .number (.integer n) =>
      if -9223372036854775808 ≤ n ∧ n < 9223372036854775808 then some n else none
  | _ => none

/-- The natural of a value, if it is one of 64 bits. -/
def toWord? : Json → Option Nat
  | .number (.integer n) => if 0 ≤ n ∧ n ≤ maxWord then some n.toNat else none
  | _ => none

/-- The natural of a value, if it is one of 32 bits. -/
def toUInt32? (node : Json) : Option UInt32 :=
  node.toWord?.bind fun n => if n < 4294967296 then some (UInt32.ofNat n) else none

/-- The text of a value, if it is one. -/
def toText? : Json → Option String
  | .string text => some text
  | _ => none

/-- Whether a value is `null`. -/
def isNull : Json → Bool
  | .null => true
  | _ => false

end Json

end FilmCatalog
