/-
  FilmCatalog.Address.Parse
  ─────────────────────────
  **READING WEB ADDRESSES.**

  `parse?` reads an absolute address, `join?` one that may be relative to
  another.  Control characters and blanks around a text do not count, and
  neither do tabs and line ends inside of it.
-/
import FilmCatalog.Address.Host
import FilmCatalog.Address.Path

namespace FilmCatalog.Address

/-! ## §1. Characters that do not count. -/

/-- Whether a character does not count at the ends. -/
def isEdge (c : Char) : Bool := c.toNat ≤ 0x20

/-- A text without the characters at its ends that do not count there. -/
def trimEdges (text : String) : List Char :=
  ((text.toList.dropWhile isEdge).reverse.dropWhile isEdge).reverse

/-- The characters of a text that count: all but its line marks. -/
def significant (text : List Char) : List Char := text.filter fun c => !isLineMark c

/-- The first character of a text that counts, and what follows it. -/
def next? (text : List Char) : Option (Char × List Char) :=
  match text.dropWhile isLineMark with
  | [] => none
  | c :: rest => some (c, rest)

/-! ## §2. Parts. -/

/-- Whether a character is a slash of either kind. -/
def isSlash (c : Char) : Bool := c = '/' || c = '\\'

/-- The scheme at the start of a text, in lower case, and what follows its
colon. -/
def splitScheme? (text : List Char) : Option (String × List Char) :=
  match Text.splitFirst ':' text with
  | none => none
  | some (before, rest) =>
      match significant before with
      | [] => none
      | c :: name =>
          if c.isAlpha && name.all (fun c => c.isAlphanum || c = '+' || c = '-' || c = '.') then
            some (String.ofList ((c :: name).map Char.toLower), rest)
          else none

/-- Query and fragment of a text that is empty or starts with one of
them. -/
def readEnding (kind : SchemeKind) (text : List Char) : Option String × Option String :=
  let fragmentOf (text : List Char) := some (String.ofList (percentEncode inFragmentSet text))
  let queryOf (text : List Char) :=
    some (String.ofList (percentEncode (inQuerySet kind.isWellKnown) text))
  match text with
  | '#' :: rest => (none, fragmentOf rest)
  | '?' :: rest =>
      match Text.splitFirst '#' rest with
      | some (query, fragment) => (queryOf query, fragmentOf fragment)
      | none => (queryOf rest, none)
  | _ => (none, none)

/-- The part of a text before its query or fragment, and the rest. -/
def splitEnding (text : List Char) : List Char × List Char :=
  text.span fun c => c ≠ '?' && c ≠ '#'

/-- Puts path and ending into an address. -/
def withEnding (kind : SchemeKind) (scheme : String) (authority : Option Authority)
    (path ending : List Char) : Address :=
  let (query, fragment) := readEnding kind ending
  { scheme, authority, path := String.ofList path, query, fragment }

/-- Whether a character ends the authority. -/
def endsAuthority (kind : SchemeKind) (c : Char) : Bool :=
  c = '/' || c = '?' || c = '#' || (c = '\\' && kind.isWellKnown)

/-- The text of user name and password. -/
def credentialsText (text : List Char) : String :=
  let (user, password) := (Text.splitFirst ':' text).getD (text, [])
  let encode := percentEncode inCredentialSet
  if user.isEmpty && password.isEmpty then ""
  else if password.isEmpty then String.ofList (encode user ++ ['@'])
  else String.ofList (encode user ++ ':' :: encode password ++ ['@'])

/-- The host at the start of a text; colons inside of brackets belong to
it. -/
def splitHost (inBrackets : Bool) : List Char → List Char × List Char
  | [] => ([], [])
  | c :: rest =>
      if c = ':' && !inBrackets then ([], c :: rest)
      else
        let inBrackets := if c = '[' then true else if c = ']' then false else inBrackets
        let (host, rest) := splitHost inBrackets rest
        (c :: host, rest)

/-- The port at the start of a text, if it is a valid one; `some none` for a
missing one. -/
def readPort? (scheme : String) (text : List Char) : Option (Option Nat) :=
  let digits := text.takeWhile Char.isDigit
  let value := digits.foldl (fun n c => 10 * n + (c.toNat - '0'.toNat)) 0
  let ended := match text.drop digits.length with
    | [] => true
    | c :: _ => endsSegment c
  if !ended || 65535 < value then none
  else if digits.isEmpty || usualPort? scheme = some value then some none
  else some (some value)

/-- The port after a host, if there is one, and the rest. -/
def splitPort? (scheme : String) (text : List Char) : Option (Option Nat × List Char) :=
  match text with
  | ':' :: digits =>
      (readPort? scheme digits).map fun port => (port, digits.dropWhile Char.isDigit)
  | _ => some (none, text)

/-- The authority at the start of a text, and the rest.  A host may be empty
only under an unusual scheme, and only if neither a user nor a port comes
with it. -/
def readAuthority? (kind : SchemeKind) (scheme : String) (text : List Char) :
    Option (Authority × List Char) := do
  let (inside, rest) := text.span fun c => !endsAuthority kind c
  let (user, place) := match Text.splitLast '@' inside with
    | some (user, place) => (some user, place)
    | none => (none, inside)
  let credentials := (user.map credentialsText).getD ""
  let (name, afterName) := splitHost false place
  let host ← if kind.isWellKnown then readHost? name else readOpaqueHost? name
  let (port, afterPort) ← splitPort? scheme (afterName ++ rest)
  let needsHost := credentials ≠ "" || place.head? == some ':' || (user == some [] && !rest.isEmpty)
  if host = "" && needsHost then none
  else
    return ({ credentials, host := if host = "" then none else some host, port }, afterPort)

/-! ## §3. Addresses with an authority. -/

/-- The path right after an authority. -/
def pathAfterAuthority (kind : SchemeKind) (text : List Char) : List Char :=
  if kind.isWellKnown then
    match text with
    | c :: rest => extendPath kind ['/'] (if isSlash c then rest else c :: rest)
    | [] => extendPath kind ['/'] []
  else
    match text with
    | [] => []
    | c :: _ => extendPath kind (if c = '/' then [] else ['/']) text

/-- An address whose authority starts here. -/
def parseAuthority? (kind : SchemeKind) (scheme : String) (text : List Char) :
    Option Address := do
  let (authority, rest) ← readAuthority? kind scheme text
  let (path, ending) := splitEnding rest
  return withEnding kind scheme (some authority) (pathAfterAuthority kind path) ending

/-- Drops the slashes at the start of a text. -/
def dropSlashes (text : List Char) : List Char := text.dropWhile isSlash

/-- The number of slashes at the start of a text. -/
def countSlashes (text : List Char) : Nat := (text.takeWhile isSlash).length

/-! ## §4. Other schemes. -/

/-- An address of a scheme that is not well known. -/
def parseOther? (scheme : String) (text : List Char) : Option Address :=
  match text with
  | '/' :: '/' :: rest => parseAuthority? .other scheme rest
  | '/' :: rest =>
      let (path, ending) := splitEnding rest
      some (withEnding .other scheme none (extendPath .other ['/'] path) ending)
  | _ =>
      let (path, ending) := splitEnding text
      some (withEnding .other scheme none (percentEncode isControl path) ending)

/-! ## §5. Files.

The texts of this section still have their line marks, which matter in the
path of a file. -/

/-- A file's address with a host, or none. -/
def fileAddress (host : Option String) (path ending : List Char) : Address :=
  withEnding .file "file" (some { credentials := "", host, port := none }) path
    (significant ending)

/-- The host of a file; the empty one and `localhost` are no host. -/
def readFileHost? (name : List Char) : Option (Option String) :=
  if name.isEmpty then some none
  else (readHost? name).map fun host => if host = "localhost" then none else some host

/-- A file's address after `file://`.  A drive may stand in place of a host,
and a drive at the start of the path takes the host away.  Without a host the
path starts with a slash before its own, so there a drive is a segment like
any other. -/
def parseFileHost? (text : List Char) : Option Address :=
  let (name, rest) := text.span fun c => !endsSegment c
  if isDrive (significant name) then
    let (path, ending) := splitEnding text
    some (fileAddress none (extendPath .file ['/'] path) ending)
  else
    let (path, ending) := splitEnding rest
    (readFileHost? (significant name)).map fun
      | none => fileAddress none (extendPath .file ['/'] path) ending
      | some host =>
          let inner := path.drop 1
          let kept := !reachesDrive .file ['/'] (segments .file inner)
          fileAddress (if kept then some host else none) (extendPath .file ['/'] inner) ending

/-- The first segment of an address's path. -/
def firstSegment (a : Address) : List Char :=
  (a.path.toList.drop 1).takeWhile (· ≠ '/')

/-- The host of an address. -/
def host? (a : Address) : Option String := a.authority.bind Authority.host

/-- A file's address that starts with one slash. -/
def parseFileRoot (base : Option Address) (text : List Char) : Address :=
  let (path, ending) := splitEnding text
  match base with
  | none => fileAddress none (extendPath .file [] path) ending
  | some base =>
      if startsWithDrive ((significant text).drop 1) then
        fileAddress none (extendPath .file [] path) ending
      else if isPlainDrive (firstSegment base) then
        fileAddress none (extendPath .file ('/' :: firstSegment base) path) ending
      else fileAddress base.host? (extendPath .file [] path) ending

/-- The same address up to its query, with another ending. -/
def replaceEnding (kind : SchemeKind) (base : Address) (ending : List Char) : Address :=
  let (query, fragment) := readEnding kind ending
  { base with query, fragment }

/-- The same address with another fragment; the text starts with its mark. -/
def replaceFragment (base : Address) (text : List Char) : Address :=
  { base with fragment := some (String.ofList (percentEncode inFragmentSet (text.drop 1))) }

/-- A file's address that starts with no slash. -/
def parseFileRelative (base : Option Address) (text : List Char) : Address :=
  let (path, ending) := splitEnding text
  let fresh := fileAddress none (extendPath .file ['/'] path) ending
  match base with
  | none => fresh
  | some base =>
      match significant text with
      | [] => { base with fragment := none }
      | '?' :: rest => replaceEnding .file base ('?' :: rest)
      | '#' :: rest => replaceFragment base ('#' :: rest)
      | inner =>
          if startsWithDrive inner then fresh
          else
            let path := extendPath .file (dropLastSegment .file base.path.toList) path
            withEnding .file base.scheme base.authority path (significant ending)

/-- A file's address, perhaps relative to that of another file. -/
def parseFile? (base : Option Address) (text : List Char) : Option Address :=
  match next? text with
  | none => some (parseFileRelative base text)
  | some (first, rest) =>
      if isSlash first then
        match next? rest with
        | some (second, rest) =>
            if isSlash second then parseFileHost? rest else some (parseFileRoot base text)
        | none => some (parseFileRoot base text)
      else some (parseFileRelative base text)

/-! ## §6. Relative addresses. -/

/-- An address relative to one that is no file's. -/
def parseRelative? (kind : SchemeKind) (base : Address) (text : List Char) : Option Address :=
  match text with
  | [] => some { base with fragment := none }
  | '?' :: _ => some (replaceEnding kind base text)
  | '#' :: _ => some (replaceFragment base text)
  | first :: rest =>
      if isSlash first then
        if 2 ≤ countSlashes text then
          match text with
          | '/' :: '/' :: after => parseAuthority? kind base.scheme after
          | _ => parseAuthority? kind base.scheme (dropSlashes text)
        else
          let (path, ending) := splitEnding rest
          some (withEnding kind base.scheme base.authority (extendPath kind ['/'] path) ending)
      else
        let (path, ending) := splitEnding text
        let start := dropLastSegment kind base.path.toList
        let start := if start.isEmpty then ['/'] else start
        some (withEnding kind base.scheme base.authority (extendPath kind start path) ending)

/-! ## §7. All addresses. -/

/-- An address after its scheme. -/
def parseWithScheme? (base : Option Address) (scheme : String) (text : List Char) :
    Option Address :=
  match SchemeKind.of scheme with
  | .file => parseFile? (base.filter fun base => base.scheme = "file") text
  | .web =>
      let text := significant text
      match base with
      | some base =>
          if countSlashes text < 2 ∧ base.scheme = scheme then parseRelative? .web base text
          else parseAuthority? .web scheme (dropSlashes text)
      | none => parseAuthority? .web scheme (dropSlashes text)
  | .other => parseOther? scheme (significant text)

/-- An address, perhaps relative to another one. -/
def read? (base : Option Address) (text : List Char) : Option Address :=
  match splitScheme? text with
  | some (scheme, rest) => parseWithScheme? base scheme rest
  | none =>
      match base with
      | none => none
      | some base =>
          if text.head? = some '#' then some (replaceFragment base (significant text))
          else if base.isOpaque then none
          else
            match SchemeKind.of base.scheme with
            | .file => parseFile? (some base) text
            | kind => parseRelative? kind base (significant text)

/-- Reads an absolute address. -/
def parse? (text : String) : Option Address := read? none (trimEdges text)

/-- Reads an address that may be relative to this one. -/
def join? (base : Address) (text : String) : Option Address :=
  read? (some base) (trimEdges text)

/-- Whether a text is the address of something on a host. -/
def isRemote (text : String) : Bool :=
  match parse? text with
  | some address => address.hasHost
  | none => false

end FilmCatalog.Address
