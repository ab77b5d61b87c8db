/-
  FilmCatalog.Files.Tree
  ──────────────────────
  **FILES AS A VALUE.**

  A file tree maps locations to entries.  A location is an absolute path in
  its plain form: every part after a slash, and no text at all for the root.
  A path as people write it is walked part by part (`locate`); it may be
  relative to the working directory, and it may hold dots and repeated
  slashes.

  Reading, writing and making directories are functions on the tree, and they
  fail for the reasons in `FileError`.  A path has less than 4096 bytes, and
  each of its parts at most 255.
-/
import FilmCatalog.Files.Path
import FilmCatalog.SortedMap

namespace FilmCatalog

/-! ## §1. Entries. -/

/-- Why a file operation fails. -/
inductive FileError where
  | notFound
  | notDirectory
  | isDirectory
  | alreadyExists
  /-- A path, or a part of one, has too many bytes. -/
  | nameTooLong
  /-- A path holds the character that ends names. -/
  | nulInName
  /-- Any other reason the system gives. -/
  | other (text : String)
  deriving DecidableEq, Repr

/-- The text of an error. -/
def FileError.message : FileError → String
  | .notFound => "No such file or directory (os error 2)"
  | .notDirectory => "Not a directory (os error 20)"
  | .isDirectory => "Is a directory (os error 21)"
  | .alreadyExists => "File exists (os error 17)"
  | .nameTooLong => "File name too long (os error 36)"
  | .nulInName => "file name contained an unexpected NUL byte"
  | .other text => text

/-- When a file was changed last. -/
inductive Modified where
  /-- In a second, counted from 1970. -/
  | second (value : Int)
  /-- By an operation on the tree. -/
  | now
  deriving DecidableEq, Repr

/-- The whole second in which a time falls that is counted in seconds and
nanoseconds from 1970; there may be more nanoseconds than a second has. -/
def Modified.ofParts (seconds nanoseconds : Int) : Modified :=
  .second (seconds + nanoseconds.fdiv 1000000000)

/-- What stands at a location. -/
inductive Entry where
  | directory
  | file (text : String) (modified : Modified)
  deriving DecidableEq, Repr

/-- Files and directories, with the directory that relative paths start
from. -/
structure FileTree where
  /-- The entries by location; the root has none. -/
  entries : SortedMap Entry
  workingDirectory : String

namespace FileTree

/-! ## §2. Locations. -/

/-- The entry at a location. -/
def entry? (tree : FileTree) (location : String) : Option Entry :=
  if location = "" then some .directory else tree.entries.get? location

/-- The location of an entry in a directory. -/
def child (location name : String) : String := location ++ "/" ++ name

/-- The location of the directory above; the root is above itself. -/
def above (location : String) : String :=
  match Text.cutLast '/' location with
  | some (before, _) => before
  | none => ""

/-- Whether a name has too many bytes for an entry of a directory. -/
def isLongName (name : String) : Bool := 255 < name.utf8ByteSize

/-- Why no entry can have a path, whatever the tree holds. -/
def flaw? (path : String) : Option FileError :=
  if path.toList.contains '\x00' then some .nulInName
  else if path = "" then some .notFound
  else if 4096 ≤ path.utf8ByteSize then some .nameTooLong
  else none

/-- Goes on from a location by one part of a path. -/
def step (tree : FileTree) (location part : String) : Except FileError String :=
  match tree.entry? location with
  | none => .error .notFound
  | some (.file _ _) => .error .notDirectory
  | some .directory =>
      if part = "" ∨ part = "." then .ok location
      else if part = ".." then .ok (above location)
      else if isLongName part then .error .nameTooLong
      else if (tree.entry? (child location part)).isSome then .ok (child location part)
      else .error .notFound

/-- Goes on from a location by several parts. -/
def walk (tree : FileTree) (location : String) : List String → Except FileError String
  | [] => .ok location
  | part :: rest =>
      match tree.step location part with
      | .ok next => tree.walk next rest
      | .error error => .error error

/-- Where a path starts. -/
def start (tree : FileTree) (path : String) : String :=
  if Path.isAbsolute path then "" else tree.workingDirectory

/-- The location that a path leads to. -/
def locate (tree : FileTree) (path : String) : Except FileError String :=
  match flaw? path with
  | some error => .error error
  | none => tree.walk (tree.start path) (Text.pieces '/' path)

/-- The entry that a path leads to. -/
def find? (tree : FileTree) (path : String) : Option Entry :=
  match tree.locate path with
  | .ok location => tree.entry? location
  | .error _ => none

/-- The location of an entry that is still to be made, where slashes at the end
of its path do not count. -/
def newLocation (tree : FileTree) (path : String) : Except FileError String :=
  match flaw? path, (Text.pieces '/' path).reverse.dropWhile (· = "") with
  | some error, _ => .error error
  | none, [] => .error .notFound
  | none, name :: others =>
      match tree.walk (tree.start path) others.reverse with
      | .error error => .error error
      | .ok location =>
          if tree.entry? location = some .directory then .ok (child location name)
          else .error .notDirectory

/-! ## §3. Reading. -/

/-- Whether a path leads anywhere. -/
def has (tree : FileTree) (path : String) : Bool := (tree.find? path).isSome

/-- The location of the directory that a path leads to. -/
def directory? (tree : FileTree) (path : String) : Option String :=
  match tree.locate path with
  | .ok location => if tree.entry? location = some .directory then some location else none
  | .error _ => none

/-- The text of a file. -/
def read (tree : FileTree) (path : String) : Except FileError String :=
  match tree.locate path with
  | .error error => .error error
  | .ok location =>
      match tree.entry? location with
      | some (.file text _) => .ok text
      | some .directory => .error .isDirectory
      | none => .error .notFound

/-- When the entry at a path was changed last; a directory always counts as
changed. -/
def modified? (tree : FileTree) (path : String) : Option Modified :=
  (tree.find? path).map fun
    | .file _ modified => modified
    | .directory => .now

/-- The files below a location, each by its path from there. -/
def filesBelow (tree : FileTree) (location : String) : List String :=
  tree.entries.entries.filterMap fun
    | (other, .file _ _) => Text.afterStart? (location ++ "/") other
    | (_, .directory) => none

/-! ## §4. Writing. -/

/-- Puts an entry at a location. -/
def put (tree : FileTree) (location : String) (entry : Entry) : FileTree :=
  { tree with entries := tree.entries.insert location entry }

/-- Writes a file that was changed at a given time; a path with a slash at its
end is that of a directory. -/
def writeAt (modified : Modified) (tree : FileTree) (path text : String) :
    Except FileError FileTree :=
  match tree.locate path with
  | .ok location =>
      match tree.entry? location with
      | some .directory => .error .isDirectory
      | _ => .ok (tree.put location (.file text modified))
  | .error error =>
      match tree.newLocation path with
      | .error error => .error error
      | .ok location =>
          if path.toList.getLast? = some '/' then .error .isDirectory
          else if error = .notFound then .ok (tree.put location (.file text modified))
          else .error error

/-- Writes a file. -/
def write (tree : FileTree) (path text : String) : Except FileError FileTree :=
  tree.writeAt .now path text

/-- What making directories leaves: the tree with those that were made, and why
it went no further. -/
structure Made where
  tree : FileTree
  error : Option FileError

/-- Makes the directories that are missing on the way along some parts, from a
directory on.  A file in the way is an entry that exists already if its turn
has come to be made: it is the last one, or one before it had to be made too
(`making`). -/
def makeAlong (tree : FileTree) (making : Bool) (location : String) : List String → Made
  | [] => ⟨tree, none⟩
  | part :: rest =>
      if part = "" ∨ part = "." then tree.makeAlong making location rest
      else if part = ".." then tree.makeAlong making (above location) rest
      else if isLongName part then ⟨tree, some .nameTooLong⟩
      else
        match tree.entry? (child location part) with
        | some .directory => tree.makeAlong making (child location part) rest
        | some (.file _ _) =>
            ⟨tree, some (if making || rest.all (· = "") then .alreadyExists else .notDirectory)⟩
        | none =>
            (tree.put (child location part) .directory).makeAlong true (child location part) rest

/-- Makes a directory and those above it; the empty path needs none. -/
def makeDirectories (tree : FileTree) (path : String) : Made :=
  if path = "" then ⟨tree, none⟩
  else
    match flaw? path with
    | some error => ⟨tree, some error⟩
    | none => tree.makeAlong false (tree.start path) (Text.pieces '/' path)

/-- Writes a file and makes the directories above it. -/
def place (tree : FileTree) (path text : String) (modified : Modified) :
    Except FileError FileTree :=
  let made := tree.makeDirectories ((Path.parent? path).getD "")
  match made.error with
  | some error => .error error
  | none => made.tree.writeAt modified path text

/-! ## §5. Comparing. -/

/-- The text of the file at a location. -/
def textAt? (tree : FileTree) (location : String) : Option String :=
  match tree.entry? location with
  | some (.file text _) => some text
  | _ => none

/-- The locations of the files whose text differs in two trees, with the new
texts; no text for a file that is gone. -/
def changes (before after : FileTree) : SortedMap (Option String) :=
  (before.entries.override after.entries).filterMap fun location _ =>
    if before.textAt? location = after.textAt? location then none
    else some (after.textAt? location)

/-- A tree that holds its working directory only, with those above it. -/
def empty (workingDirectory : String) : FileTree :=
  let bare : FileTree := ⟨.empty, ""⟩
  { (bare.makeDirectories workingDirectory).tree with workingDirectory }

end FileTree

end FilmCatalog
