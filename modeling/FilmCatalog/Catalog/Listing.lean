/-
  FilmCatalog.Catalog.Listing
  ───────────────────────────
  **THE FILMS OF A CATALOGUE.**

  A film has a record, a video, or both.  Records and videos of one
  identifier belong together; the rest is matched by similarity.  Films are
  listed in four groups: exact pairs, similar pairs, videos without a record,
  records without a video.
-/
import FilmCatalog.Catalog.Config
import FilmCatalog.Catalog.Document
import FilmCatalog.Catalog.Log
import FilmCatalog.Catalog.Scan
import FilmCatalog.Matching.Exact
import FilmCatalog.Matching.Orphans

namespace FilmCatalog

/-! ## §1. Films. -/

/-- A file of a film. -/
structure FileRef where
  id : String
  /-- When it was changed last; nothing for a missing file. -/
  modified : Option Modified
  deriving DecidableEq, Repr

/-- A film: its record and its files. -/
structure Film where
  record : Record
  video : Option FileRef
  info : Option FileRef
  deriving DecidableEq

/-- A film without a record; its title is guessed from a file. -/
def Film.untitled (video info : Option FileRef) : Film where
  record :=
    match video.or info with
    | some file =>
        { Record.empty with title := SortedMap.insert .empty "" (.plain (guessTitle file.id)) }
    | none => .empty
  video := video
  info := info

/-! ## §2. Catalogues. -/

/-- The directories of a catalogue and its countries. -/
structure Catalog where
  directories : Directories
  countries : CountryTable

namespace Catalog

/-- The catalogue in some directories; without a table of countries it has
none. -/
def openIn (tree : FileTree) (directories : Directories) : Catalog :=
  match CountryTable.read tree directories.database with
  | .ok countries => ⟨directories, countries⟩
  | .error _ => ⟨directories, .empty⟩

/-- Reads a record. -/
def openRecord (c : Catalog) (tree : FileTree) (id : String) : Record.Opened :=
  Record.openFile tree c.countries c.directories.infos id

/-- Writes a record. -/
def saveRecord (c : Catalog) (tree : FileTree) (id : String) (record : Record) : Record.Saved :=
  record.saveFile tree c.directories.infos id

/-- The file of a record. -/
def infoRef (c : Catalog) (tree : FileTree) (id : String) : FileRef :=
  ⟨id, tree.modified? (Record.path c.directories.infos id)⟩

/-- The extensions of videos. -/
def videoExtensions : List String := ["mp4", "mkv"]

/-- The path of a video with an extension. -/
def videoPath (c : Catalog) (id extension : String) : String :=
  Path.join c.directories.videos (id ++ "." ++ extension)

/-- The file of a video: the first extension that there is a file for. -/
def videoRef (c : Catalog) (tree : FileTree) (id : String) : FileRef :=
  let paths := videoExtensions.map (c.videoPath id)
  ⟨id, (paths.find? tree.has).bind tree.modified?⟩

/-! ## §3. Records. -/

/-- The records that could be read, the files afterwards and the messages. -/
structure Known where
  records : SortedMap Record
  tree : FileTree
  log : Log

/-- Takes care of a record that was repaired: it is written back, or the
reasons are reported. -/
def settle (c : Catalog) (store : Bool) (state : Known) (id : String) (opened : Record.Opened) :
    Known :=
  if store then
    let saved := c.saveRecord state.tree id opened.record
    let state := { state with tree := saved.tree }
    match saved.result with
    | .ok _ => state
    | .error error =>
        { state with log := state.log ++ [.warn ("Cannot store " ++ id ++ ": " ++ error.message)] }
  else { state with log := state.log ++ [.info (id ++ ":" ++ Notes.text opened.notes)] }

/-- Adds the record with an identifier, if it can be read. -/
def visit (c : Catalog) (store : Bool) (state : Known) (id : String) : Known :=
  let opened := c.openRecord state.tree id
  match opened.result with
  | .error error =>
      { state with log := state.log ++ [.warn ("Skipping " ++ id ++ ": " ++ error.message)] }
  | .ok outcome =>
      let state := if outcome = .updated then c.settle store state id opened else state
      { state with records := state.records.insert id opened.record }

/-- All records that can be read. -/
def known (c : Catalog) (tree : FileTree) (store : Bool) : Known :=
  (scanIds tree c.directories.infos [Record.fileExtension]).foldl (c.visit store)
    ⟨.empty, tree, []⟩

/-- The identifiers of all videos. -/
def videoIds (c : Catalog) (tree : FileTree) : List String :=
  scanIds tree c.directories.videos videoExtensions

/-! ## §4. The listing. -/

/-- The films of a catalogue, the files afterwards and the messages. -/
structure Listing where
  films : List Film
  tree : FileTree
  log : Log

/-- How the records and videos of a catalogue belong together. -/
structure Groups where
  exact : List String
  similar : List Matching.Candidate
  videos : List String
  infos : List String

/-- Groups records and videos. -/
def group (records : SortedMap Record) (videos : List String) : Groups :=
  let split := Matching.split records.keys videos
  let matched := Matching.matchOrphans records split.infos split.videos
  ⟨split.both, matched.accepted, matched.videos, matched.infos⟩

/-- The message that sums a scan up. -/
def Groups.summary (g : Groups) : String :=
  "Catalog scan: " ++ Nat.repr g.exact.length ++ " exact, " ++ Nat.repr g.similar.length
    ++ " fuzzy, " ++ Nat.repr g.videos.length ++ " videos without info, "
    ++ Nat.repr g.infos.length ++ " infos without video"

/-- Makes the film of a record, which is taken out of those that are left.
One that is not among them leaves a title only. -/
def takeFilm (c : Catalog) (tree : FileTree) (left : SortedMap Record) (video : Option String)
    (info : String) : Film × SortedMap Record :=
  let videoRef := video.map (c.videoRef tree)
  let infoRef := some (c.infoRef tree info)
  match left.get? info with
  | some record => (⟨record, videoRef, infoRef⟩, left.erase info)
  | none => (.untitled videoRef infoRef, left)

/-- Makes the films of several records one after the other, each with its
video. -/
def takeFilms (c : Catalog) (tree : FileTree) (left : SortedMap Record) :
    List (Option String × String) → List Film × SortedMap Record
  | [] => ([], left)
  | (video, info) :: rest =>
      let first := c.takeFilm tree left video info
      let others := c.takeFilms tree first.2 rest
      (first.1 :: others.1, others.2)

/-- The films of all groups. -/
def films (c : Catalog) (state : Known) (g : Groups) : List Film :=
  let paired := c.takeFilms state.tree state.records
    (g.exact.map (fun id => (some id, id))
      ++ g.similar.map fun pair => (some pair.video, pair.info))
  let unseen := c.takeFilms state.tree paired.2 (g.infos.map fun id => (none, id))
  paired.1
    ++ g.videos.map (fun id => .untitled (some (c.videoRef state.tree id)) none)
    ++ unseen.1

/-- Lists the films of a catalogue. -/
def list (c : Catalog) (tree : FileTree) (store : Bool) : Listing :=
  let state := c.known tree store
  let groups := group state.records (c.videoIds state.tree)
  ⟨c.films state groups, state.tree, state.log ++ [.info groups.summary]⟩

end Catalog

end FilmCatalog
