/-
  FilmCatalog.CommandLine.Run
  ───────────────────────────
  **WHAT COMMANDS DO.**

      scan   lists the films of a catalogue
      merge  merges an incoming record into a stored one

  A command works on a file tree and leaves a report: what it prints, what it
  logs, why it failed, and the files afterwards.
-/
import FilmCatalog.Catalog.Listing
import FilmCatalog.CommandLine.Arguments
import FilmCatalog.Merge.Record

namespace FilmCatalog.CommandLine

/-! ## §1. Reports. -/

/-- What a command leaves. -/
structure Report where
  /-- What goes to the standard output. -/
  output : String
  log : Log
  /-- Why the command failed. -/
  failure : Option String
  tree : FileTree

namespace Report

/-- The exit code. -/
def code (r : Report) : Nat := if r.failure.isSome then 1 else 0

/-- The first line of a text. -/
def firstLine (text : String) : String := ((Text.pieces '\n' text).head?).getD ""

/-- The lines for the error output: messages, then the failure. -/
def errorLines (r : Report) : List String :=
  r.log.flatMap (fun message => Text.pieces '\n' message.shown)
    ++ (r.failure.map fun failure => firstLine ("Error: " ++ failure)).toList

end Report

/-- Names the step that failed. -/
def during {ε α : Type} (step : String) (result : Except ε α) : Except String α :=
  result.mapError fun _ => step

/-! ## §2. Scanning. -/

/-- The configuration of a scan. -/
def ScanOptions.configuration (o : ScanOptions) (tree : FileTree) : Except String Config :=
  match o.config with
  | some path => during ("Failed to read config " ++ path) (Config.read tree path)
  | none => .ok (.ofDirectories o.db o.videos)

/-- A file in a listing. -/
def sideText (file : Option FileRef) : String :=
  match file with
  | some file => file.id
  | none => "-"

/-- A film in a listing: its record, its video and its title. -/
def describe (film : Film) : String :=
  let title := match Translated.find? film.record.title "" with
    | some (_, title) => title.text
    | none => ""
  sideText film.info ++ " <- " ++ sideText film.video ++ ": " ++ title

/-- The message that names a catalogue. -/
def titleMessage (config : Config) : Log :=
  match config.title with
  | some title => [.info ("Catalog: " ++ title)]
  | none => []

/-- Lists the films of a catalogue. -/
def ScanOptions.run (o : ScanOptions) (tree : FileTree) : Report :=
  match o.configuration tree with
  | .error failure => ⟨"", [], some failure, tree⟩
  | .ok config =>
      let listing := (Catalog.openIn tree config.directories).list tree o.store
      { output := String.join (listing.films.map fun film => describe film ++ "\n")
        log := titleMessage config ++ listing.log
        failure := none
        tree := listing.tree }

/-! ## §3. Merging. -/

/-- The record in a file. -/
def readRecord (tree : FileTree) (path : String) : Except String Record := do
  let text ← during ("Failed to read " ++ path) (tree.read path)
  during ("Failed to load " ++ path) (Record.ofText text)

/-- The table that the countries of both records are mapped by. -/
def MergeOptions.countries (o : MergeOptions) (tree : FileTree) :
    Except String (Option CountryTable) :=
  match o.db with
  | none => .ok none
  | some directory =>
      (during ("Failed to load country aliases from " ++ directory)
        (CountryTable.read tree directory)).map some

/-- A record with the codes of its countries, if there is a table. -/
def mapped (table : Option CountryTable) (record : Record) : Record :=
  match table with
  | some table => record.mapCountries table
  | none => record

/-- The images of the incoming record, resolved and placed as asked. -/
def MergeOptions.prepare (o : MergeOptions) (images : Artwork) : Artwork :=
  let images := match o.referrer with
    | some page => images.resolveUrls page
    | none => images
  match o.imageDirectory with
  | some directory => images.assignPaths directory
  | none => images

/-- The merged record. -/
def MergeOptions.merged (o : MergeOptions) (tree : FileTree) : Except String RecordMerge := do
  let stored ← readRecord tree o.old
  let incoming ← readRecord tree o.new
  let table ← o.countries tree
  let incoming := mapped table incoming
  during ("Failed to merge " ++ o.new ++ " into " ++ o.old)
    (Record.merge o.preferences (mapped table stored)
      { incoming with image := o.prepare incoming.image })

/-- The name of an outcome in messages. -/
def outcomeName : Outcome → String
  | .absent => "Absent"
  | .unchanged => "Unchanged"
  | .updated => "Updated"

/-- The messages of a merge. -/
def mergeLog (merged : RecordMerge) : Log :=
  .info ("Merge outcome: " ++ outcomeName merged.outcome)
    :: merged.imageOps.map fun op => .info op.text

/-- Merges two records. -/
def MergeOptions.run (o : MergeOptions) (tree : FileTree) : Report :=
  match o.merged tree with
  | .error failure => ⟨"", [], some failure, tree⟩
  | .ok merged =>
      let text := merged.record.text
      match o.output with
      | none => ⟨text, mergeLog merged, none, tree⟩
      | some path =>
          match tree.write path text with
          | .ok tree => ⟨"", mergeLog merged, none, tree⟩
          | .error _ => ⟨"", mergeLog merged, some ("Failed to write " ++ path), tree⟩

/-- Runs a command. -/
def Command.run : Command → FileTree → Report
  | .scan options, tree => options.run tree
  | .merge options, tree => options.run tree

end FilmCatalog.CommandLine
