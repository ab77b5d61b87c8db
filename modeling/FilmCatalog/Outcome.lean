/-
  FilmCatalog.Outcome
  ───────────────────
  **WHAT A STEP DID, AND WHY.**

  Loading and merging both report one of three outcomes.  They are ordered

      absent  <  unchanged  <  updated

  and the outcome of several steps is the largest of theirs (`absorb`): an
  update sticks, and a part that was not there never hides what another part
  reported.  A step that changed something by itself also leaves a line in
  the `Notes`, so that automatic repairs can be looked up afterwards.
-/
import FilmCatalog.Text.Parts

namespace FilmCatalog

/-! ## §1. Outcomes. -/

/-- What a load or a merge step did to the value it worked on. -/
inductive Outcome where
  /-- The property was not there; this is no error. -/
  | absent
  /-- Nothing changed in meaning. -/
  | unchanged
  /-- The value changed, by a merge or by the repair of an old layout. -/
  | updated
  deriving DecidableEq, Repr

namespace Outcome

/-- `updated` if there was a change, else `unchanged`. -/
def ofChanged (changed : Bool) : Outcome :=
  if changed then .updated else .unchanged

/-- Folds the outcome of a further step into the one collected so far. -/
def absorb : Outcome → Outcome → Outcome
  | _, .updated => .updated
  | .absent, .unchanged => .unchanged
  | collected, _ => collected

@[simp] theorem absent_absorb (o : Outcome) : absorb .absent o = o := by
  cases o <;> rfl

@[simp] theorem absorb_absent (o : Outcome) : absorb o .absent = o := by
  cases o <;> rfl

@[simp] theorem updated_absorb (o : Outcome) : absorb .updated o = .updated := by
  cases o <;> rfl

@[simp] theorem absorb_updated (o : Outcome) : absorb o .updated = .updated := by
  cases o <;> rfl

end Outcome

/-! ## §2. Notes. -/

/-- The lines that explain the `updated` outcomes of one run, in order. -/
abbrev Notes := List String

/-- The notes as they follow a heading: each on a line of its own, after a
dash. -/
def Notes.text (notes : Notes) : String :=
  String.join (notes.map fun line => "\n- " ++ line)

/-- Whether a line of the notes holds a text. -/
def Notes.mention (notes : Notes) (text : String) : Bool :=
  notes.any fun line => Text.contains line text

end FilmCatalog
