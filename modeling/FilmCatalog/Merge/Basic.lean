/-
  FilmCatalog.Merge.Basic
  ───────────────────────
  **MERGING WHAT IS STORED WITH WHAT COMES IN.**

  A merge gives the new value together with its outcome.  For single values
  there are three rules:

      replace    the incoming value counts
      optional   the incoming value counts if there is one
      preferred  a preference tells which side counts; the other side only
                 fills a gap

  Values by language are merged language by language (`languages`).
-/
import FilmCatalog.Outcome
import FilmCatalog.Translated

namespace FilmCatalog

/-! ## §1. Preferences and errors. -/

/-- Which side counts where both have a value. -/
inductive Preference where
  /-- Keep what is stored. -/
  | mine
  /-- Take what comes in. -/
  | theirs
  deriving DecidableEq, Repr

/-- The preferences of one merge. -/
structure Preferences where
  /-- For texts, sort texts and original marks of titles. -/
  title : Preference
  /-- For year, runtime and rating. -/
  details : Preference
  deriving DecidableEq, Repr

/-- Why two records cannot be merged. -/
inductive MergeError where
  /-- A role that points at nobody. -/
  | danglingRole (list : String) (index : Int) (known : Nat)
  /-- An error in a field. -/
  | field (key : String) (cause : MergeError)
  deriving DecidableEq, Repr

/-- The text of an error. -/
def MergeError.message : MergeError → String
  | .danglingRole list index known =>
      list ++ " entry references person #" ++ Int.repr index ++ ", but only " ++ Nat.repr known
        ++ " are known"
  | .field key cause => key ++ ": " ++ cause.message

/-! ## §2. Results. -/

/-- A merged value, and whether the merge changed the stored one. -/
structure Merged (α : Type) where
  value : α
  outcome : Outcome
  deriving DecidableEq, Repr

namespace Merged

variable {α β : Type}

/-- The stored value as it was. -/
def keep (value : α) : Merged α := ⟨value, .unchanged⟩

/-- A merge that changed the value in any case. -/
def change (value : α) : Merged α := ⟨value, .updated⟩

/-- The incoming value; the outcome tells whether it is another one. -/
def replace [DecidableEq α] (stored incoming : α) : Merged α :=
  ⟨incoming, .ofChanged (stored ≠ incoming)⟩

/-- The incoming value, if there is one. -/
def optional [DecidableEq α] (stored incoming : Option α) : Merged (Option α) :=
  match incoming with
  | none => keep stored
  | some _ => replace stored incoming

/-- The value of the preferred side, or of the other one if that side has
none; what comes in never removes a value. -/
def preferred [DecidableEq α] (prefer : Preference) (stored incoming : Option α) :
    Merged (Option α) :=
  match prefer, stored with
  | .mine, some _ => keep stored
  | _, _ => optional stored incoming

/-- One merge after another on the same value. -/
def andThen (first : Merged α) (next : α → Merged α) : Merged α :=
  ⟨(next first.value).value, first.outcome.absorb (next first.value).outcome⟩

/-- A merge of a part, as a merge of the whole. -/
def into (merged : Merged α) (place : α → β) : Merged β := ⟨place merged.value, merged.outcome⟩

/-! ## §3. Values by language. -/

/-- Merges the value of one language; a new language is added. -/
def language (mergeOne : α → α → Merged α) (stored : Translated α) (tag : String)
    (incoming : α) : Merged (Translated α) :=
  match SortedMap.get? stored tag with
  | some current => (mergeOne current incoming).into (SortedMap.insert stored tag)
  | none => change (SortedMap.insert stored tag incoming)

/-- Merges the values of all languages, in the order of their tags. -/
def languages (mergeOne : α → α → Merged α) (stored incoming : Translated α) :
    Merged (Translated α) :=
  incoming.entries.foldl
    (fun merged entry => merged.andThen fun m => language mergeOne m entry.1 entry.2)
    (keep stored)

/-- Merges texts by language; incoming texts count. -/
def texts (stored incoming : Translated String) : Merged (Translated String) :=
  languages replace stored incoming

end Merged

end FilmCatalog
