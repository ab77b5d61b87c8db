/-
  FilmCatalog.Catalog.Error
  ─────────────────────────
  **WHY A CATALOGUE FILE IS REFUSED.**
-/
import FilmCatalog.Files.Tree
import FilmCatalog.Load.Error

namespace FilmCatalog

/-- Why a file of a catalogue cannot be used. -/
inductive CatalogError where
  /-- The system refused an operation. -/
  | io (error : FileError)
  /-- A file cannot be read. -/
  | read (path : String) (error : FileError)
  /-- A file cannot be written. -/
  | write (path : String) (error : FileError)
  /-- A text is no JSON. -/
  | syntaxError
  /-- A document is no record. -/
  | record (error : LoadError)
  /-- The document of an identifier is no record. -/
  | invalidRecord (id : String) (error : LoadError)
  /-- A table holds something else. -/
  | format (path reason : String)
  /-- A settings file holds something else. -/
  | config (path : String)
  deriving DecidableEq, Repr

/-- The text of an error. -/
def CatalogError.message : CatalogError → String
  | .io error => "IO error: " ++ error.message
  | .read path error => "Cannot read " ++ path ++ ": " ++ error.message
  | .write path error => "Cannot write " ++ path ++ ": " ++ error.message
  | .syntaxError => "Serialization error"
  | .record error => "Invalid record: " ++ error.message
  | .invalidRecord id error => "Invalid record " ++ id ++ ": " ++ error.message
  | .format path reason => "Unexpected content in " ++ path ++ ": " ++ reason
  | .config path => "Invalid config " ++ path

/-- The text of a file. -/
def readFile (tree : FileTree) (path : String) : Except CatalogError String :=
  (tree.read path).mapError (.read path)

end FilmCatalog
