/-
  FilmCatalog.Proofs.Crew.Agreement
  ─────────────────────────────────
  **MERGE AND REPAIR NUMBER PEOPLE ALIKE.**

  The repair after a load numbers the people of one crew, the merge those of
  two.  The repair renumbers roles where they stand; the merge turns them into
  credits, ranks, walks and restores these, and numbers what comes out.  Both
  arrive at the crew made of the same appearances, those of the people in
  canonical form (`renumbered_eq_ofCredits`).

  So a crew that is merged with nobody, on either side, is the repaired crew,
  and so is a crew that is merged with itself, if everybody has a name: people
  without one are never paired (`merge_agrees_with_canonicalize`).
-/
import FilmCatalog.Proofs.Crew.Loading
import FilmCatalog.Proofs.Crew.Merging

namespace FilmCatalog.Crew

/-! ## §1. Credits of people in canonical form. -/

theorem personAt?_map (f : Person → Person) (names : List Person) (id : Int) :
    personAt? (names.map f) id = (personAt? names id).map f := by
  unfold personAt?
  by_cases h : 0 ≤ id
  · rw [if_pos h, if_pos h, List.getElem?_map]
  · rw [if_neg h, if_neg h, Option.map_none]

/-- People are changed where they stand, so roles lead to the changed ones. -/
theorem appearances_map (f : Person → Person) (names : List Person) (roles : List Role) :
    appearances (names.map f) roles
      = (appearances names roles).map fun appearance => (f appearance.1, appearance.2) := by
  unfold appearances
  rw [List.map_filterMap]
  congr 1
  funext role
  rw [personAt?_map]
  cases personAt? names role.id with
  | none => rfl
  | some person => rfl

/-- A credit forgets how the references were written: its person is the one in
canonical form. -/
theorem map_creditAppearance_creditsOf (c : Crew) (department : Department) :
    (c.creditsOf department).map creditAppearance
      = appearances (c.names.map Person.canonical) (c.roles department) := by
  rw [appearances_map]
  unfold creditsOf
  rw [List.map_map]
  rfl

/-- **Renumbering a crew is numbering its credits.** -/
theorem renumbered_eq_ofCredits {c : Crew} (h : c.Attached) :
    c.renumbered
      = ofCredits (c.creditsOf .directors) (c.creditsOf .writers) (c.creditsOf .cast) := by
  rw [ofCredits_eq, renumbered_eq h, map_creditAppearance_creditsOf,
    map_creditAppearance_creditsOf, map_creditAppearance_creditsOf]
  rfl

/-! ## §2. Merges that add nothing. -/

/-- A merge that leaves all credits of a crew as they are renumbers it. -/
theorem merge_of_mergedCredits {stored incoming c : Crew} (hstored : stored.Attached)
    (hincoming : incoming.Attached) (h : c.Attached)
    (hcredits : ∀ department, mergedCredits stored incoming department = c.creditsOf department) :
    merge stored incoming = .ok (.replace stored c.renumbered) := by
  rw [merge_eq hstored hincoming, hcredits, hcredits, hcredits, renumbered_eq_ofCredits h]

theorem value_canonicalize (c : Crew) : c.canonicalize.value = c.renumbered := by
  unfold canonicalize
  simp only
  split
  · rfl
  · rfl

/-- **Merge and repair agree.**  A crew without dangling roles that is merged
into nobody, or nobody into it, is the repaired crew.  If everybody has a
name, so is the crew merged into itself. -/
theorem merge_agrees_with_canonicalize {c : Crew} (h : c.dangling? = none) :
    merge empty c = .ok (.replace empty c.canonicalize.value) ∧
      merge c empty = .ok (.replace c c.canonicalize.value) ∧
      ((∀ person ∈ c.names, person.name ≠ "") →
        merge c c = .ok (.replace c c.canonicalize.value)) := by
  have hattached : c.Attached := dangling?_eq_none_iff.1 h
  rw [value_canonicalize]
  refine ⟨?_, ?_, fun hnamed => ?_⟩
  · apply merge_of_mergedCredits attached_empty hattached hattached
    intro department
    unfold mergedCredits
    rw [creditsOf_empty]
    exact Credit.rule.mergeLists_nil _
  · apply merge_of_mergedCredits hattached attached_empty hattached
    intro department
    unfold mergedCredits
    rw [creditsOf_empty]
    exact Credit.rule.mergeLists_nil_right _
  · apply merge_of_mergedCredits hattached hattached hattached
    intro department
    -- Every credit has the name of somebody on the list, so it pairs with itself.
    apply Credit.rule.mergeLists_self
    intro credit hcredit
    obtain ⟨appearance, happearance, rfl⟩ := List.mem_map.1 hcredit
    exact credit_keepsItself (hnamed appearance.1 (mem_names_of_mem_appearances happearance))

/-- A crew whose names are neither in order nor all used: one person stands on
the list twice, with references that only differ in their order. -/
def untidyCrew : Crew :=
  ⟨[⟨2, none⟩], [⟨0, some "story"⟩, ⟨2, none⟩], [⟨3, some "Ash"⟩, ⟨0, none⟩],
    [⟨"Dan", ["imdb:2", "filmweb:1"]⟩, ⟨"Nobody", []⟩, ⟨"Ridley", ["imdb:7", "imdb:9"]⟩,
      ⟨"Dan", ["filmweb:1", "imdb:2"]⟩]⟩

theorem merge_agrees_untidyCrew :
    untidyCrew.dangling? = none ∧ (∀ person ∈ untidyCrew.names, person.name ≠ "") ∧
      untidyCrew.canonicalize.value =
        ⟨[⟨0, none⟩], [⟨1, some "story"⟩, ⟨0, none⟩], [⟨1, some "Ash"⟩, ⟨1, none⟩],
          [⟨"Ridley", ["imdb:9"]⟩, ⟨"Dan", ["filmweb:1", "imdb:2"]⟩]⟩ ∧
      merge empty untidyCrew = .ok (.replace empty untidyCrew.canonicalize.value) ∧
      merge untidyCrew empty = .ok (.replace untidyCrew untidyCrew.canonicalize.value) ∧
      merge untidyCrew untidyCrew = .ok (.replace untidyCrew untidyCrew.canonicalize.value) := by
  have hdangling : untidyCrew.dangling? = none := by decide +kernel
  have hnamed : ∀ person ∈ untidyCrew.names, person.name ≠ "" := by decide +kernel
  have hrepaired : untidyCrew.canonicalize.value =
      ⟨[⟨0, none⟩], [⟨1, some "story"⟩, ⟨0, none⟩], [⟨1, some "Ash"⟩, ⟨1, none⟩],
        [⟨"Ridley", ["imdb:9"]⟩, ⟨"Dan", ["filmweb:1", "imdb:2"]⟩]⟩ := by decide +kernel
  obtain ⟨hinto, hfrom, hself⟩ := merge_agrees_with_canonicalize hdangling
  exact ⟨hdangling, hnamed, hrepaired, hinto, hfrom, hself hnamed⟩

end FilmCatalog.Crew
