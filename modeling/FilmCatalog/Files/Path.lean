/-
  FilmCatalog.Files.Path
  ──────────────────────
  **NAMES IN PATHS.**

  A path is a text with slashes.  Its parts are what stands between them;
  empty parts and single dots do not count, except for a dot at the start of
  a relative path.  The name of a path is its last part, unless that is one
  of the dots.

  The extension of a name is what follows its last dot, if something stands
  before that dot.
-/
import FilmCatalog.Text.Parts

namespace FilmCatalog.Path

/-! ## §1. Names. -/

/-- Stem and extension of a name. -/
def splitName (name : List Char) : List Char × Option (List Char) :=
  if name = ['.', '.'] then (name, none)
  else
    match Text.splitLast '.' name with
    | none => (name, none)
    | some ([], _) => (name, none)
    | some (stem, extension) => (stem, some extension)

/-- Whether a part counts. -/
def counts (part : List Char) : Bool := part ≠ [] && part ≠ ['.']

/-- The last part of a path that counts, if it is no dots. -/
def fileName? (path : List Char) : Option (List Char) :=
  match ((Text.splitAll '/' path).filter counts).getLast? with
  | some name => if name = ['.', '.'] then none else some name
  | none => none

/-- The extension of a path. -/
def extension? (path : String) : Option String :=
  ((fileName? path.toList).bind fun name => (splitName name).2).map String.ofList

/-- A name without its extension.  The letters of the extension go first; two
dots that are left then stand for the directory above and stay. -/
def bareName (name : List Char) : List Char :=
  match splitName name with
  | (_, none) => name
  | (stem, some _) => if stem = ['.'] then ['.', '.'] else stem

/-- A path without the extension of its last part. -/
def dropExtension (path : String) : String :=
  match Text.cutLast '/' path with
  | some (before, name) => before ++ "/" ++ String.ofList (bareName name.toList)
  | none => String.ofList (bareName path.toList)

/-! ## §2. Joining. -/

/-- Whether a path starts at the root. -/
def isAbsolute (path : String) : Bool := path.toList.head? == some '/'

/-- A path below a directory; an absolute path stays what it is. -/
def join (directory path : String) : String :=
  if isAbsolute path then path
  else if directory = "" || directory.toList.getLast? == some '/' then directory ++ path
  else directory ++ "/" ++ path

/-! ## §3. Parents. -/

/-- The parts of a path, last part first, without those at the end that do
not count; the first part of the path always stays. -/
def dropIdle : List (List Char) → List (List Char)
  | [] => []
  | [first] => [first]
  | part :: rest => if counts part then part :: rest else dropIdle rest

/-- The text of parts, last part first. -/
def ofParts (parts : List (List Char)) : String :=
  match parts with
  | [[]] => "/"
  | parts => String.ofList (['/'].intercalate parts.reverse)

/-- The directory that a path lies in, as it is written in the path. -/
def parent? (path : String) : Option String :=
  match dropIdle (Text.splitAll '/' path.toList).reverse with
  | [] => none
  | [[]] => none
  | [_] => some ""
  | _ :: rest => some (ofParts (dropIdle rest))

end FilmCatalog.Path
