/-
  FilmCatalog.Load.Error
  ──────────────────────
  **WHY A DOCUMENT IS REFUSED.**

  An error is its cause, wrapped once for every property it was found under.
  The wrappers spell the way from the root of the document to the offending
  node (`keys`); items of a list are named by their index.
-/
import FilmCatalog.Json.Basic

namespace FilmCatalog

/-- Why a value could not be read from its document. -/
inductive LoadError where
  /-- The document itself could not be read. -/
  | io (text : String)
  /-- A node of the wrong kind. -/
  | shape (expected : String) (found : Json.Kind)
  /-- A name outside the table of known names. -/
  | unknownName (kind : String) (name : String)
  /-- A role that points at nobody. -/
  | danglingRole (list : String) (index : Int) (known : Nat)
  /-- An error below the property `key`. -/
  | field (key : String) (cause : LoadError)
  deriving DecidableEq, Repr

namespace LoadError

/-- The error for a node that should have been something else. -/
def unexpected (expected : String) (node : Json) : LoadError := .shape expected node.kind

/-- The keys that lead to the cause, from the outside in. -/
def keys : LoadError → List String
  | .field key cause => key :: cause.keys
  | _ => []

/-- The error without its wrappers. -/
def root : LoadError → LoadError
  | .field _ cause => cause.root
  | error => error

/-- The keys with dots between them. -/
def path (error : LoadError) : String := ".".intercalate error.keys

/-- How many errors lie below this one; a failed read rests on one of the
system. -/
def depth : LoadError → Nat
  | .field _ cause => cause.depth + 1
  | .io _ => 1
  | _ => 0

/-- The text of an error. -/
def message : LoadError → String
  | .io text => "io error: " ++ text
  | .shape expected found => "expected " ++ expected ++ ", found " ++ found.name
  | .unknownName kind name => "unknown " ++ kind ++ " '" ++ name ++ "'"
  | .danglingRole list index known =>
      list ++ " entry references person #" ++ Int.repr index ++ ", but only " ++ Nat.repr known
        ++ " are known"
  | .field key cause => key ++ ": " ++ cause.message

end LoadError

end FilmCatalog
