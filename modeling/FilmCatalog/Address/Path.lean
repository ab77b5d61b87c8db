/-
  FilmCatalog.Address.Path
  ────────────────────────
  **PATHS OF WEB ADDRESSES.**

  A path grows segment by segment.  A segment `.` is left out and `..` takes
  the last one away, also in their encoded spellings.  Under the file scheme
  a drive such as `C|` at the start is written `C:` and never taken away, and
  slashes at the start count once.

  Tabs and line ends inside of a segment do not count, but they cut it into
  runs, and a run behind a bare drive starts with a slash of its own.
-/
import FilmCatalog.Address.Basic
import FilmCatalog.Address.Percent
import FilmCatalog.Text.Parts

namespace FilmCatalog.Address

/-! ## §1. Drives and dots. -/

/-- Whether a character ends a segment or a path. -/
def endsSegment (c : Char) : Bool := c = '/' || c = '\\' || c = '?' || c = '#'

/-- Whether a text starts with a drive as its first segment. -/
def startsWithDrive : List Char → Bool
  | letter :: mark :: rest =>
      letter.isAlpha && (mark = ':' || mark = '|')
        && (match rest with
          | [] => true
          | c :: _ => endsSegment c)
  | _ => false

/-- Whether a segment is a drive. -/
def isDrive (segment : List Char) : Bool := startsWithDrive segment && segment.length == 2

/-- Whether a segment is a drive in its usual spelling. -/
def isPlainDrive (segment : List Char) : Bool :=
  isDrive segment && segment.drop 1 = [':']

/-- Whether a segment stands for one dot. -/
def isDot (segment : List Char) : Bool :=
  [".", "%2e", "%2E"].contains (String.ofList segment)

/-- Whether a segment stands for two dots. -/
def isDoubleDot (segment : List Char) : Bool :=
  ["..", "%2e%2e", "%2e%2E", "%2E%2e", "%2E%2E", "%2e.", "%2E.", ".%2e", ".%2E"].contains
    (String.ofList segment)

/-! ## §2. Taking segments away. -/

/-- Whether a path ends with a slash. -/
def endsWithSlash (path : List Char) : Bool := path.getLast? == some '/'

/-- The path up to and including its last slash; a drive at its end stays. -/
def dropLastSegment (kind : SchemeKind) (path : List Char) : List Char :=
  match Text.splitLast '/' path with
  | none => path
  | some (before, segment) =>
      if kind = .file ∧ isPlainDrive segment then path else before ++ ['/']

/-- Whether the slash at the end of a path belongs to a segment that may be
taken away: there is one, and it is no drive. -/
def lastSlashIsFree (path : List Char) : Bool :=
  match Text.splitLast '/' path.dropLast with
  | none => false
  | some (before, _) => !startsWithDrive (path.drop (before.length + 1))

/-- Takes the last segment away for two dots. -/
def goUp (kind : SchemeKind) (path : List Char) : List Char :=
  let path := if endsWithSlash path && lastSlashIsFree path then path.dropLast else path
  dropLastSegment kind path

/-! ## §3. Adding segments. -/

/-- Whether a character does not count anywhere in an address. -/
def isLineMark (c : Char) : Bool := c = '\t' || c = '\n' || c = '\r'

/-- The runs of a segment: what stands between its line marks. -/
def runs (segment : List Char) : List (List Char) :=
  Text.splitAll '\n' (segment.map fun c => if isLineMark c then '\n' else c)

/-- Writes one run of a segment that starts at `start`.  Behind a path that is
just a drive a slash comes first, and then the segment starts one further. -/
def writeRun (kind : SchemeKind) (path : List Char) (start : Nat) (run : List Char) :
    List Char × Nat :=
  let text := percentEncode inPathSet run
  if run = [] then (path, start)
  else if kind = .file ∧ isPlainDrive (path.drop 1) then (path ++ '/' :: text, start + 1)
  else (path ++ text, start)

/-- Writes the runs of a segment: the longer path, and where the segment
starts in it. -/
def writeRuns (kind : SchemeKind) (path : List Char) (start : Nat) :
    List (List Char) → List Char × Nat
  | [] => (path, start)
  | run :: rest =>
      let (path, start) := writeRun kind path start run
      writeRuns kind path start rest

/-- A path with a segment at its end. -/
structure Written where
  /-- The path before the segment. -/
  before : List Char
  segment : List Char

/-- Writes a segment at the end of a path. -/
def writeSegment (kind : SchemeKind) (path segment : List Char) : Written :=
  let (written, start) := writeRuns kind path path.length (runs segment)
  ⟨written.take start, written.drop start⟩

/-- Whether a segment is the drive at the start of a file's path. -/
def Written.isFirstDrive (kind : SchemeKind) (written : Written) : Bool :=
  kind = .file && written.before.length = 1 && isDrive written.segment

/-- Adds a segment, which has a slash behind it or is the last. -/
def addSegment (kind : SchemeKind) (path segment : List Char) (slash : Bool) : List Char :=
  let written := writeSegment kind path segment
  let ending := if slash then ['/'] else []
  if isDoubleDot written.segment then
    let path := goUp kind written.before
    if slash && !endsWithSlash path then path ++ ['/'] else path
  else if isDot written.segment then
    if endsWithSlash written.before then written.before else written.before ++ ['/']
  else if written.isFirstDrive kind then
    written.before ++ written.segment.take 1 ++ [':'] ++ ending
  else written.before ++ written.segment ++ ending

/-- Adds several segments with slashes between them. -/
def addSegments (kind : SchemeKind) (path : List Char) : List (List Char) → List Char
  | [] => path
  | [last] => addSegment kind path last false
  | segment :: rest => addSegments kind (addSegment kind path segment true) rest

/-- The segments of a text; backslashes count as slashes under the
well-known schemes. -/
def segments (kind : SchemeKind) (text : List Char) : List (List Char) :=
  Text.splitAll '/' (text.map fun c => if c = '\\' ∧ kind.isWellKnown then '/' else c)

/-- Slashes at the start of a file's path count once. -/
def tidy (kind : SchemeKind) (path : List Char) : List Char :=
  if kind = .file then '/' :: path.dropWhile (· = '/') else path

/-- Whether adding some segments puts a drive at the start of the path. -/
def reachesDrive (kind : SchemeKind) (path : List Char) : List (List Char) → Bool
  | [] => false
  | segment :: rest =>
      (writeSegment kind path segment).isFirstDrive kind
        || reachesDrive kind (addSegment kind path segment true) rest

/-- The path that a text gives, starting from `path`. -/
def extendPath (kind : SchemeKind) (path text : List Char) : List Char :=
  tidy kind (addSegments kind path (segments kind text))

end FilmCatalog.Address
