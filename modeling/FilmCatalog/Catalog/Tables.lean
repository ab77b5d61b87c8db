/-
  FilmCatalog.Catalog.Tables
  ──────────────────────────
  **TABLES NEXT TO THE RECORDS.**

      iso-alpha-2.json   country codes, each with the names it goes by
      refs.json          identifiers that were renamed, by domain

  A country is looked up by its code first, then by its names in any case;
  of two codes with a common name the later one counts.
-/
import FilmCatalog.Catalog.Error
import FilmCatalog.Json.Reader
import FilmCatalog.Text.Case

namespace FilmCatalog

/-! ## §1. Files. -/

/-- The object in a file. -/
def readObject (tree : FileTree) (path : String) : Except CatalogError Json.Fields :=
  match readFile tree path with
  | .error error => .error error
  | .ok text =>
      match Json.read? text with
      | none => .error .syntaxError
      | some (.object fields) => .ok fields
      | some _ => .error (.format path "expected an object")

/-- The texts of a list; anything else is left out. -/
def textsIn : Json → List String
  | .array items => items.filterMap Json.toText?
  | _ => []

/-! ## §2. Countries. -/

/-- Country codes and the names they go by. -/
structure CountryTable where
  codes : List String
  /-- Codes by name, in lower case. -/
  names : SortedMap String

namespace CountryTable

/-- No countries. -/
def empty : CountryTable := ⟨[], .empty⟩

/-- The name of the file. -/
def fileName : String := "iso-alpha-2.json"

/-- Adds a country. -/
def insert (table : CountryTable) (code : String) (names : List String) : CountryTable where
  codes := code :: table.codes
  names := names.foldl (fun all name => all.insert (Text.lower name) code) table.names

/-- Whether there is no country. -/
def isEmpty (table : CountryTable) : Bool := table.codes.isEmpty

/-- The table of a list of countries. -/
def ofList (countries : List (String × List String)) : CountryTable :=
  countries.foldl (fun table country => table.insert country.1 country.2) empty

/-- The code of a country; an unknown one stays as it is. -/
def map (table : CountryTable) (country : String) : String :=
  if table.codes.contains country then country
  else (table.names.get? (Text.lower country)).getD country

/-- Reads the table in a directory. -/
def read (tree : FileTree) (directory : String) : Except CatalogError CountryTable :=
  (readObject tree (Path.join directory fileName)).map fun fields =>
    ofList (fields.map fun field => (field.1, textsIn field.2))

/-- Reads the first name of every country that has one. -/
def readNames (tree : FileTree) (directory : String) : Except CatalogError (SortedMap String) :=
  (readObject tree (Path.join directory fileName)).map fun fields =>
    .ofList (fields.filterMap fun field =>
      match textsIn field.2 with
      | [] => none
      | name :: _ => if name = "" then none else some (field.1, name))

end CountryTable

/-! ## §3. Renamed identifiers. -/

/-- New identifiers by old ones. -/
structure RenameTable where
  renames : SortedMap String

namespace RenameTable

/-- The name of the file. -/
def fileName : String := "refs.json"

/-- The identifier that counts today. -/
def map (table : RenameTable) (id : String) : String := (table.renames.get? id).getD id

/-- The texts among some fields. -/
def ofFields (fields : Json.Fields) : RenameTable :=
  ⟨.ofList (fields.filterMap fun field => field.2.toText?.map fun name => (field.1, name))⟩

/-- Reads the renamed identifiers of a domain. -/
def read (tree : FileTree) (directory domain : String) : Except CatalogError RenameTable :=
  let path := Path.join directory fileName
  match readObject tree path with
  | .error error => .error error
  | .ok fields =>
      match fields.get? domain with
      | none => .ok ⟨.empty⟩
      | some (.object renames) => .ok (ofFields renames)
      | some _ => .error (.format path ("'" ++ domain ++ "' is not an object"))

end RenameTable

/-! ## §4. Both tables. -/

/-- The tables of a directory. -/
structure Tables where
  countries : CountryTable
  renames : RenameTable

/-- Reads both tables; the countries come first. -/
def Tables.read (tree : FileTree) (directory domain : String) : Except CatalogError Tables := do
  let countries ← CountryTable.read tree directory
  let renames ← RenameTable.read tree directory domain
  return ⟨countries, renames⟩

end FilmCatalog
