/-
  FilmCatalog.Merge.Weave
  ───────────────────────
  **MERGING LISTS.**

  Two lists are merged item by item, wherever the items stand.  Every item
  gets its position, stored items first; both sides are put in order and
  walked side by side (`weave`).  Items that belong together become one, at
  a position that the rule decides; all others are kept.  Last, the items go
  back to the order of their positions, so that stored items stay in their
  order and new ones follow in theirs.
-/
import FilmCatalog.Merge.Basic
import FilmCatalog.Playback

namespace FilmCatalog

/-! ## §1. Rules. -/

/-- How the items of two lists are merged. -/
structure WeaveRule (α : Type) where
  /-- Whether the first item may stand before the second on the walk. -/
  le : α → α → Bool
  /-- Whether a stored and an incoming item belong together. -/
  pairs : α → α → Bool
  /-- What becomes of such a pair, and where it goes. -/
  unite : α × Nat → α × Nat → α × Nat

namespace WeaveRule

/-- Texts belong together when they are equal; the stored one stays. -/
def texts : WeaveRule String where
  le a b := a ≤ b
  pairs a b := a = b
  unite stored _ := stored

/-- Markers belong together when they are equivalent; one with another
comment takes the place where it came in. -/
def markers : WeaveRule Marker where
  le a b := (compare a b).isLE
  pairs := Marker.equivalent
  unite stored incoming :=
    if stored.1.comment = incoming.1.comment then stored else incoming

variable {α : Type} (rule : WeaveRule α)

/-! ## §2. The walk. -/

/-- The items with their positions, in the order of the walk; equal items
stay in the order of their positions. -/
def ranked (items : List α) (offset : Nat) : List (α × Nat) :=
  (items.zipIdx offset).mergeSort fun a b => rule.le a.1 b.1

/-- Walks two lists side by side and unites the items that belong
together. -/
def weave : List (α × Nat) → List (α × Nat) → List (α × Nat)
  | [], incoming => incoming
  | older :: stored, [] => older :: stored
  | older :: stored, newer :: incoming =>
      if rule.pairs older.1 newer.1 then rule.unite older newer :: weave stored incoming
      else if rule.le older.1 newer.1 then older :: weave stored (newer :: incoming)
      else newer :: weave (older :: stored) incoming
termination_by stored incoming => stored.length + incoming.length

/-- The items in the order of their positions. -/
def restored (items : List (α × Nat)) : List α :=
  (items.mergeSort fun a b => a.2 ≤ b.2).map (·.1)

/-- The items of both lists, each pair united. -/
def mergeLists (stored incoming : List α) : List α :=
  restored (rule.weave (rule.ranked stored 0) (rule.ranked incoming stored.length))

/-- Merges two lists, and tells whether that changed the stored one. -/
def merge [DecidableEq α] (stored incoming : List α) : Merged (List α) :=
  .replace stored (rule.mergeLists stored incoming)

end WeaveRule

end FilmCatalog
