/-
  FilmCatalog.Main
  ────────────────
  **THE PROGRAM.**

  The commands themselves work on a value.  Here the files that a command
  looks at are read into that value beforehand, and what the command changed
  is written back afterwards.
-/
import FilmCatalog.CommandLine.Run

namespace FilmCatalog.CommandLine

/-- How the program is called. -/
def usage : String :=
  "Movie catalog maintenance\n\n"
    ++ "  scan   [--config FILE] [--db DIR] [--videos DIR] [--store]\n"
    ++ "         Load a catalog and report how videos pair with records\n\n"
    ++ "  merge  OLD NEW [--prefer-title] [--prefer-details] [--referrer URL]\n"
    ++ "         [--image-dir DIR] [--db DIR] [--output FILE]\n"
    ++ "         Merge a freshly scraped record into a stored one\n"

/-! ## §1. Reading files. -/

/-- An empty tree at the working directory. -/
def emptyTree : IO FileTree := do
  let directory := (← IO.currentDir).toString
  return .empty (if directory = "/" then "" else directory)

/-- Adds what stands at a path to a tree; the text of a file only if it is
wanted. -/
def addEntry (tree : FileTree) (path : String) (wanted : Bool) : IO FileTree := do
  let target := (← IO.currentDir) / path
  if ← target.isDir then return (tree.makeDirectories path).tree
  else if ← target.pathExists then
    let text ← if wanted then (try IO.FS.readFile target catch _ => pure "") else pure ""
    let time := (← target.metadata).modified
    let modified := Modified.ofParts time.sec time.nsec.toNat
    return (tree.place path text modified).toOption.getD tree
  else return tree

/-- Adds a directory with all that is below it; of files only records are
read. -/
partial def addDirectory (tree : FileTree) (path : String) : IO FileTree := do
  let wanted := Path.extension? path = some Record.fileExtension
  let mut tree ← addEntry tree path wanted
  let target := (← IO.currentDir) / path
  if ← target.isDir then
    for entry in ← target.readDir do
      tree ← addDirectory tree (Path.join path entry.fileName)
  return tree

/-- The files that a scan looks at. -/
def ScanOptions.snapshot (o : ScanOptions) : IO FileTree := do
  let mut tree ← emptyTree
  if let some path := o.config then tree ← addEntry tree path true
  match o.configuration tree with
  | .error _ => return tree
  | .ok config =>
      let directories := config.directories
      tree ← addEntry tree (Path.join directories.database CountryTable.fileName) true
      tree ← addDirectory tree directories.infos
      addDirectory tree directories.videos

/-- The files that a merge looks at. -/
def MergeOptions.snapshot (o : MergeOptions) : IO FileTree := do
  let mut tree ← addEntry (← emptyTree) o.old true
  tree ← addEntry tree o.new true
  if let some directory := o.db then
    tree ← addEntry tree (Path.join directory CountryTable.fileName) true
  if let some path := o.output then
    tree ← addEntry tree path true
    if let some directory := Path.parent? path then tree ← addEntry tree directory false
  return tree

/-- The files that a command looks at. -/
def Command.snapshot : Command → IO FileTree
  | .scan options => options.snapshot
  | .merge options => options.snapshot

/-! ## §2. Writing files. -/

/-- Writes what differs in two trees. -/
def writeChanges (before after : FileTree) : IO Unit :=
  for (location, text) in (before.changes after).entries do
    match text with
    | some text =>
        IO.FS.createDirAll (FileTree.above location)
        IO.FS.writeFile location text
    | none => IO.FS.removeFile location

/-- Reads the files, runs a command and writes the files. -/
def Command.perform (command : Command) : IO UInt32 := do
  let before ← command.snapshot
  let report := command.run before
  writeChanges before report.tree
  for line in report.errorLines do IO.eprintln line
  IO.print report.output
  return UInt32.ofNat report.code

end FilmCatalog.CommandLine

open FilmCatalog.CommandLine in
/-- The program. -/
def main (arguments : List String) : IO UInt32 :=
  match Command.read arguments with
  | .error .help => do
      IO.print usage
      return 0
  | .error .usage => do
      IO.eprint usage
      return 2
  | .ok command => command.perform
