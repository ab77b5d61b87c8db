/-
  FilmCatalog.Catalog.Document
  ────────────────────────────
  **RECORDS IN FILES.**

  A record with the identifier `id` is the file `id.json` in the directory of
  the records.  When it is read its countries are brought in line with the
  table of countries.
-/
import FilmCatalog.Catalog.Tables
import FilmCatalog.Json.Printer
import FilmCatalog.Record.Load
import FilmCatalog.Text.Blank

namespace FilmCatalog

namespace Record

/-! ## §1. Texts. -/

/-- The text of a record. -/
def text (r : Record) : String := r.toJson.pretty ++ "\n"

/-- The record of a text. -/
def ofText (text : String) : Except CatalogError Record :=
  match Json.read? text with
  | none => .error .syntaxError
  | some node =>
      let loaded := ofJson node
      match loaded.result with
      | .error error => .error (.record error)
      | .ok _ => .ok loaded.value

/-! ## §2. Countries. -/

/-- The countries with their codes; several may stand in one text, with
slashes between them. -/
def mappedCountries (table : CountryTable) (countries : List String) : List String :=
  (countries.flatMap (Text.pieces '/')).map fun country => table.map (Text.trim country)

/-- The record with the codes of its countries. -/
def mapCountries (table : CountryTable) (r : Record) : Record :=
  { r with countries := mappedCountries table r.countries }

/-- Replaces countries by their codes, and notes it. -/
def repairCountries (table : CountryTable) (r : Record) : Loaded Record :=
  if mappedCountries table r.countries = r.countries then .done r .absent
  else .repaired (r.mapCountries table) "Country list updated to ISO alpha2"

/-! ## §3. Files. -/

/-- The extension of record files. -/
def fileExtension : String := "json"

/-- The path of the record with an identifier. -/
def path (infos id : String) : String := Path.join infos (id ++ "." ++ fileExtension)

/-- What reading a record leaves. -/
structure Opened where
  record : Record
  notes : Notes
  result : Except CatalogError Outcome

/-- Reads the record with an identifier. -/
def openFile (tree : FileTree) (table : CountryTable) (infos id : String) : Opened :=
  match readFile tree (path infos id) with
  | .error error => ⟨empty, [], .error error⟩
  | .ok text =>
      match Json.read? text with
      | none => ⟨empty, [], .error .syntaxError⟩
      | some node =>
          let loaded := (ofJson node).andThen (repairCountries table)
          ⟨loaded.value, loaded.notes, loaded.result.mapError (.invalidRecord id)⟩

/-- What writing a record leaves; directories that were made stay also if the
record could not be written. -/
structure Saved where
  tree : FileTree
  result : Except CatalogError Unit

/-- Writes the record with an identifier. -/
def saveFile (tree : FileTree) (infos id : String) (r : Record) : Saved :=
  let file := path infos id
  let directory := (Path.parent? file).getD ""
  let made := tree.makeDirectories directory
  match made.error with
  | some error => ⟨made.tree, .error (.write directory error)⟩
  | none =>
      match made.tree.write file r.text with
      | .ok written => ⟨written, .ok ()⟩
      | .error error => ⟨made.tree, .error (.write file error)⟩

end Record

end FilmCatalog
