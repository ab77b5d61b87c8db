/-
  FilmCatalog.Catalog.Config
  ──────────────────────────
  **WHERE A CATALOGUE KEEPS ITS FILES.**

  A settings file is an object with a `title` and a `path`.  The path is the
  directory of the whole catalogue, or an object that names single
  directories; all of them are relative to the settings file.  Both objects
  may also be written as lists of all their values, in order.

  A property that is not known is not looked at; a known one may stand only
  once.
-/
import FilmCatalog.Catalog.Error
import FilmCatalog.Json.Reader

namespace FilmCatalog

/-! ## §1. Directories. -/

/-- The directories of a catalogue. -/
structure Directories where
  /-- Records. -/
  infos : String
  images : String
  videos : String
  deriving DecidableEq, Repr

namespace Directories

/-- The directories in a database directory, next to a video directory. -/
def ofDatabase (database videos : String) : Directories :=
  ⟨Path.join database "nfo", Path.join database "img", videos⟩

/-- The usual directories below a root. -/
def under (root : String) : Directories :=
  ofDatabase (Path.join root "db") (Path.join root "videos")

/-- The directory of the tables: the one that the records' directory is
in. -/
def database (d : Directories) : String := (Path.parent? d.infos).getD "db"

end Directories

/-! ## §2. Settings as written. -/

/-- Single directories, as far as they are named. -/
structure NamedDirectories where
  db : Option String
  nfo : Option String
  img : Option String
  video : Option String
  deriving DecidableEq, Repr

/-- The `path` of a settings file. -/
inductive PathSetting where
  | root (path : String)
  | directories (named : NamedDirectories)
  deriving DecidableEq, Repr

/-- What a settings file says. -/
structure Settings where
  title : Option String
  path : Option PathSetting
  deriving DecidableEq, Repr

namespace Settings

open Json (Tree Piece)

/-- A text or `null`; `none` for anything else. -/
def textOrNull? : Tree → Option (Option String)
  | .null => some none
  | .string pieces => (Json.pieceText? pieces).map some
  | _ => none

/-- Fields with their keys decoded. -/
def decodeKeys? (fields : List (List Piece × Tree)) : Option (List (String × Tree)) :=
  fields.mapM fun (field : List Piece × Tree) =>
    (Json.pieceText? field.1).map fun key => (key, field.2)

/-- The field under a key, `null` if there is none; `none` if there are
several. -/
def fieldOnce? (fields : List (String × Tree)) (key : String) : Option Tree :=
  match fields.filter fun field => field.1 = key with
  | [] => some .null
  | [field] => some field.2
  | _ => none

/-- Single directories, from the four values that name them. -/
def namedDirectories? (db nfo img video : Tree) : Option NamedDirectories := do
  return ⟨← textOrNull? db, ← textOrNull? nfo, ← textOrNull? img, ← textOrNull? video⟩

/-- The directories of the catalogue, from a value that has been checked. -/
def pathSetting? : Tree → Option PathSetting
  | .string pieces => (Json.pieceText? pieces).map .root
  | .array [db, nfo, img, video] => (namedDirectories? db nfo img video).map .directories
  | .object fields => do
      let fields ← decodeKeys? fields
      let named ← namedDirectories? (← fieldOnce? fields "db") (← fieldOnce? fields "nfo")
        (← fieldOnce? fields "img") (← fieldOnce? fields "video")
      return .directories named
  | _ => none

/-- The directories of the catalogue, or `null`.  The whole value is checked,
also where it is not looked at. -/
def pathOrNull? (tree : Tree) : Option (Option PathSetting) :=
  match tree with
  | .null => some none
  | tree => do
      let _ ← tree.valueWithin? (Json.nestingLimit - 1)
      return some (← pathSetting? tree)

/-- Settings from their two values. -/
def ofValues? (title path : Tree) : Option Settings := do
  return ⟨← textOrNull? title, ← pathOrNull? path⟩

/-- The settings in a text. -/
def read? (text : String) : Option Settings :=
  match Tree.scan? text with
  | some (.array [title, path]) => ofValues? title path
  | some (.object fields) => do
      let fields ← decodeKeys? fields
      ofValues? (← fieldOnce? fields "title") (← fieldOnce? fields "path")
  | _ => none

end Settings

/-! ## §3. Configurations. -/

/-- The title and the directories of a catalogue. -/
structure Config where
  title : Option String
  directories : Directories
  deriving DecidableEq, Repr

namespace Config

/-- The directories of some settings; paths are relative to `base`. -/
def resolve (base : String) : Option PathSetting → Directories
  | none => .under base
  | some (.root path) => .under (Path.join base path)
  | some (.directories named) =>
      let usual := Directories.under base
      let database := named.db.map (Path.join base)
      { infos := ((named.nfo.map (Path.join base)).or
          (database.map fun db => Path.join db "nfo")).getD usual.infos
        images := ((named.img.map (Path.join base)).or
          (database.map fun db => Path.join db "img")).getD usual.images
        videos := (named.video.map (Path.join base)).getD usual.videos }

/-- Reads a settings file. -/
def read (tree : FileTree) (path : String) : Except CatalogError Config :=
  match readFile tree path with
  | .error error => .error error
  | .ok text =>
      match Settings.read? text with
      | none => .error (.config path)
      | some settings =>
          .ok ⟨settings.title, resolve ((Path.parent? path).getD "") settings.path⟩

/-- The configuration of directories that are given one by one. -/
def ofDirectories (database videos : Option String) : Config :=
  ⟨none, .ofDatabase (database.getD "db") (videos.getD "videos")⟩

end Config

end FilmCatalog
