/-
  FilmCatalog.Address.Basic
  ─────────────────────────
  **WEB ADDRESSES.**

  An address is its parts.  Its text puts them together again; the text of an
  address without a host part whose path starts with two slashes has `/.`
  before them, so that the path is not taken for a host.
-/

namespace FilmCatalog

/-- The part of an address between `//` and the path. -/
structure Authority where
  /-- User name and password with a closing `@`, or nothing. -/
  credentials : String
  /-- The host, if it is not empty. -/
  host : Option String
  /-- The port, if it is not the usual one. -/
  port : Option Nat
  deriving DecidableEq, Repr

/-- A web address. -/
structure Address where
  scheme : String
  authority : Option Authority
  path : String
  query : Option String
  fragment : Option String
  deriving DecidableEq, Repr

namespace Authority

/-- The text of an authority, with the slashes before it. -/
def text (a : Authority) : String :=
  let port := match a.port with
    | some port => ":" ++ Nat.repr port
    | none => ""
  "//" ++ a.credentials ++ a.host.getD "" ++ port

end Authority

namespace Address

/-- How the scheme decides the reading of the rest. -/
inductive SchemeKind where
  /-- Files: a host is unusual, and a path may start with a drive. -/
  | file
  /-- The well-known schemes of the web, which need a host. -/
  | web
  /-- Any other scheme. -/
  | other
  deriving DecidableEq, Repr

/-- The kind of a scheme. -/
def SchemeKind.of (scheme : String) : SchemeKind :=
  if scheme = "file" then .file
  else if ["http", "https", "ws", "wss", "ftp"].contains scheme then .web
  else .other

/-- Whether backslashes count as slashes and hosts have a written form. -/
def SchemeKind.isWellKnown : SchemeKind → Bool
  | .other => false
  | _ => true

/-- The port that need not be written. -/
def usualPort? (scheme : String) : Option Nat :=
  if scheme = "http" ∨ scheme = "ws" then some 80
  else if scheme = "https" ∨ scheme = "wss" then some 443
  else if scheme = "ftp" then some 21
  else none

/-- Whether the address names a host. -/
def hasHost (a : Address) : Bool :=
  match a.authority with
  | some authority => authority.host.isSome
  | none => false

/-- Whether relative addresses cannot be resolved against this one. -/
def isOpaque (a : Address) : Bool :=
  a.authority.isNone && !(a.path.toList.head? == some '/')

/-- The text of an address. -/
def text (a : Address) : String :=
  let authority := match a.authority with
    | some authority => authority.text
    | none => if a.path.toList.take 2 = ['/', '/'] then "/." else ""
  let query := match a.query with
    | some query => "?" ++ query
    | none => ""
  let fragment := match a.fragment with
    | some fragment => "#" ++ fragment
    | none => ""
  a.scheme ++ ":" ++ authority ++ a.path ++ query ++ fragment

end Address

end FilmCatalog
