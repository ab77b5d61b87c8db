/-
  FilmCatalog.Proofs.Catalog.Noting
  ─────────────────────────────────
  **UPDATES ARE NOTED, AND NOTES ARE UPDATES.**

  A record that was repaired when it was read has to be written back, and the
  one who reads the notes wants to know why.  The outcome asks for the first
  and the notes answer the second; the loaders hand them on separately, but
  they always agree:

      outcome      notes
      updated      at least one
      unchanged    none

  Each loader keeps the two in line (`Candid`), and a record starts from
  `unchanged`, so it is never `absent` (`ofJson_ne_absent`).
-/
import FilmCatalog.Proofs.Catalog.Migration
import FilmCatalog.Proofs.Merging
import FilmCatalog.Proofs.Record.Reporting

namespace FilmCatalog

open Loaded

/-! ## §1. Records are never absent. -/

theorem Loaded.andThen_ne_absent {α : Type} {first : Loaded α} (h : first.result ≠ .ok .absent)
    (next : α → Loaded α) : (first.andThen next).result ≠ .ok .absent := by
  intro habsent
  obtain ⟨_, before, after, hbefore, _, heq⟩ := andThen_ok habsent
  exact Outcome.absorb_ne_absent (fun hnone => h (hnone ▸ hbefore)) heq.symm

/-- The outcome and the notes of a load agree, if something was loaded at all. -/
theorem Loaded.Candid.agree {α : Type} {loaded : Loaded α} {P : LoadError → Prop}
    (h : loaded.Candid P) (hpresent : loaded.result ≠ .ok .absent) {outcome : Outcome}
    (houtcome : loaded.result = .ok outcome) :
    (outcome = .updated ↔ loaded.notes ≠ []) ∧ (outcome = .unchanged ↔ loaded.notes = []) := by
  have hnoted := h.noted outcome houtcome
  refine ⟨hnoted, ?_⟩
  cases outcome with
  | absent => exact absurd houtcome hpresent
  | unchanged =>
    refine iff_of_true rfl (Decidable.not_not.1 fun hnotes => ?_)
    exact Outcome.noConfusion (hnoted.2 hnotes)
  | updated => exact iff_of_false Outcome.noConfusion (hnoted.1 rfl)

namespace Record

theorem ofJson_ne_absent (document : Json) : (ofJson document).result ≠ .ok .absent := by
  unfold ofJson ofJsonBy load withFields
  split
  · -- The first step of the head is `unchanged`, and no later step takes that back.
    refine andThen_ne_absent (andThen_ne_absent ?_ _) _
    unfold loadHead
    repeat refine andThen_ne_absent ?_ _
    exact fun habsent => Outcome.noConfusion (Except.ok.inj habsent)
  · intro habsent
    cases habsent

/-! ## §2. Records in files. -/

theorem candid_repairCountries {P : LoadError → Prop} (table : CountryTable) (r : Record) :
    (repairCountries table r).Candid P := by
  unfold repairCountries
  split
  · exact candid_done r Outcome.noConfusion
  · exact candid_repaired _ _

/-- **A load is an update exactly if it left a note**, and else nothing changed:
for every document that is loaded, and for every record that is read from a file
with any table of countries. -/
theorem updated_iff_noted :
    (∀ (document : Json) (outcome : Outcome), (ofJson document).result = .ok outcome →
      (outcome = .updated ↔ (ofJson document).notes ≠ []) ∧
      (outcome = .unchanged ↔ (ofJson document).notes = [])) ∧
    (∀ (tree : FileTree) (table : CountryTable) (infos id : String) (outcome : Outcome),
      (openFile tree table infos id).result = .ok outcome →
      (outcome = .updated ↔ (openFile tree table infos id).notes ≠ []) ∧
      (outcome = .unchanged ↔ (openFile tree table infos id).notes = [])) := by
  refine ⟨fun document outcome h => ?_, fun tree table infos id outcome h => ?_⟩
  · exact (candid_ofJson document).agree (ofJson_ne_absent document) h
  · obtain ⟨text, node, _, hread, hnode, _⟩ := exists_of_openFile h
    rw [openFile_of_read hread hnode] at h ⊢
    have hcandid := (candid_ofJson node).andThen (candid_repairCountries table)
    exact hcandid.agree (andThen_ne_absent (ofJson_ne_absent node) _) (ok_of_mapError h)

/-- Nothing in this document has to be repaired. -/
def plainDocument : Json :=
  .object [("countries", .array [.string "US"]), ("title", .string "Up")]

theorem updated_iff_noted_aged :
    (ofJson plainDocument).result = .ok .unchanged ∧ (ofJson plainDocument).notes = [] ∧
    (openFile agedTree (.ofList twoCountries) "/" "up").result = .ok .updated ∧
    (openFile agedTree (.ofList twoCountries) "/" "up").notes ≠ [] := by
  have hplain : (ofJson plainDocument).result = .ok .unchanged := by decide +kernel
  have haged : (openFile agedTree (.ofList twoCountries) "/" "up").result = .ok .updated := by
    decide +kernel
  exact ⟨hplain, (updated_iff_noted.1 _ _ hplain).2.1 rfl, haged,
    (updated_iff_noted.2 _ _ _ _ _ haged).1.1 rfl⟩

end Record

end FilmCatalog
