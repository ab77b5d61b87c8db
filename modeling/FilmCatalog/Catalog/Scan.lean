/-
  FilmCatalog.Catalog.Scan
  ────────────────────────
  **IDENTIFIERS OF FILES.**

  The identifier of a file is its path below a directory, without the
  extension.  A title can be guessed from it.
-/
import FilmCatalog.Files.Tree
import FilmCatalog.Text.Case

namespace FilmCatalog

/-- The identifier of a file with one of some extensions. -/
def idOf? (extensions : List String) (file : String) : Option String :=
  match Path.extension? file with
  | some extension =>
      if extensions.contains extension then some (Path.dropExtension file) else none
  | none => none

/-- The identifiers of all files below a directory that have one of some
extensions, in order; none if there is no such directory. -/
def scanIds (tree : FileTree) (root : String) (extensions : List String) : List String :=
  match tree.directory? root with
  | none => []
  | some location =>
      ((tree.filesBelow location).filterMap (idOf? extensions)).mergeSort fun a b => a ≤ b

/-- The title that an identifier suggests: one with blanks is a title
already, in others marks become blanks and the first letter is capital. -/
def guessTitle (id : String) : String :=
  if id.toList.any fun c => c = ' ' || c = '\t' then id
  else
    Text.capitalize
      (id.map fun c => if c = '-' || c = '_' || c = '.' || c = '/' then ' ' else c)

end FilmCatalog
