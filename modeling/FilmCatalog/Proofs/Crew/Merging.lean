/-
  FilmCatalog.Proofs.Crew.Merging
  ───────────────────────────────
  **THE MERGE OF CREWS KEEPS THE NORMAL FORM.**

  Where every role is attached, each one has its credit and the merge cannot
  stop (`merge_eq`).  A merged credit is a credit of one side or the union of
  two, and a union has the name and plain keys of its parts; so the people of
  the merged credits are fit for the normal form, and numbering them gives it
  (`exists_merge_normal`).

  A crew in normal form that is merged with itself stays what it is
  (`merge_self`).
-/
import FilmCatalog.Proofs.Crew.Numbering
import FilmCatalog.Proofs.Weave

namespace FilmCatalog.Crew

/-! ## §1. Credits of attached roles. -/

/-- The credit of an appearance. -/
def creditOf (appearance : Person × Option String) : Credit :=
  .ofPerson appearance.1 appearance.2

/-- The credits of a department whose roles are attached. -/
def creditsOf (c : Crew) (department : Department) : List Credit :=
  (appearances c.names (c.roles department)).map creditOf

/-- The credits of a department after a merge. -/
def mergedCredits (stored incoming : Crew) (department : Department) : List Credit :=
  Credit.rule.mergeLists (stored.creditsOf department) (incoming.creditsOf department)

/-- Without dangling roles every role has a credit. -/
theorem credits_eq (department : Department) {names : List Person} {roles : List Role}
    (h : ∀ role ∈ roles, 0 ≤ role.id ∧ role.id < names.length) :
    credits department names roles = .ok ((appearances names roles).map creditOf) := by
  induction roles with
  | nil => rfl
  | cons role rest ih =>
    obtain ⟨hrole, hrest⟩ := List.forall_mem_cons.1 h
    obtain ⟨person, hperson⟩ := Option.isSome_iff_exists.1 (isSome_personAt?_iff.2 hrole)
    rw [credits, hperson, appearances_cons hperson]
    simp only [ih hrest]
    rfl

/-- Departments without dangling roles are merged credit by credit. -/
theorem mergeCredits_eq {stored incoming : Crew} (hstored : stored.Attached)
    (hincoming : incoming.Attached) (department : Department) :
    mergeCredits stored incoming department = .ok (mergedCredits stored incoming department) := by
  unfold mergeCredits
  rw [credits_eq department (hstored.roles department),
    credits_eq department (hincoming.roles department)]
  rfl

/-- **Crews whose roles are attached can be merged.** -/
theorem merge_eq {stored incoming : Crew} (hstored : stored.Attached)
    (hincoming : incoming.Attached) :
    merge stored incoming = .ok (.replace stored
      (ofCredits (mergedCredits stored incoming .directors)
        (mergedCredits stored incoming .writers) (mergedCredits stored incoming .cast))) := by
  unfold merge
  simp only [mergeCredits_eq hstored hincoming]
  rfl

/-! ## §2. The normal form. -/

/-- A credit whose person is fit for the normal form. -/
def FitCredit (credit : Credit) : Prop :=
  Person.PlainKeys credit.refs ∧ ¬ isPlaceholder credit.name

/-- The credits of a crew in normal form are fit. -/
theorem fit_creditsOf {c : Crew} (h : c.Normal) (department : Department) :
    ∀ credit ∈ c.creditsOf department, FitCredit credit := by
  intro credit hcredit
  obtain ⟨appearance, happearance, rfl⟩ := List.mem_map.1 hcredit
  exact ⟨appearance.1.plainKeys_refMap,
    h.named appearance.1 (mem_names_of_mem_appearances happearance)⟩

/-- So are merged credits. -/
theorem fit_mergedCredits {stored incoming : Crew} (hstored : stored.Normal)
    (hincoming : incoming.Normal) (department : Department) :
    ∀ credit ∈ mergedCredits stored incoming department, FitCredit credit := by
  refine Credit.rule.forall_mergeLists ?_ (fit_creditsOf hstored department)
    (fit_creditsOf hincoming department)
  -- A union keeps the name of the stored credit and has the keys of both.
  intro a b i j ha hb
  exact ⟨Person.plainKeys_override hb.1 ha.1, ha.2⟩

/-- Fit credits make a crew in normal form. -/
theorem normal_ofCredits {directors writers cast : List Credit}
    (hdirectors : ∀ credit ∈ directors, FitCredit credit)
    (hwriters : ∀ credit ∈ writers, FitCredit credit)
    (hcast : ∀ credit ∈ cast, FitCredit credit) : (ofCredits directors writers cast).Normal := by
  rw [ofCredits_eq]
  refine normal_ofAppearances fun person hperson => ?_
  rw [← List.map_append, ← List.map_append, List.map_map] at hperson
  obtain ⟨credit, hcredit, rfl⟩ := List.mem_map.1 hperson
  have hfit : FitCredit credit := by
    rcases List.mem_append.1 hcredit with hcredit | hcredit
    · rcases List.mem_append.1 hcredit with hcredit | hcredit
      · exact hdirectors credit hcredit
      · exact hwriters credit hcredit
    · exact hcast credit hcredit
  exact ⟨Person.canonical_ofRefMap credit.name hfit.1, hfit.2⟩

/-- **Crews in normal form can be merged, and the merged crew is in normal
form.** -/
theorem exists_merge_normal {stored incoming : Crew} (hstored : stored.Normal)
    (hincoming : incoming.Normal) :
    ∃ fresh, fresh.Normal ∧ merge stored incoming = .ok (.replace stored fresh) :=
  ⟨_, normal_ofCredits (fit_mergedCredits hstored hincoming .directors)
    (fit_mergedCredits hstored hincoming .writers) (fit_mergedCredits hstored hincoming .cast),
    merge_eq hstored.attached hincoming.attached⟩

theorem attached_empty : empty.Attached := normal_empty.attached

theorem creditsOf_empty (department : Department) : empty.creditsOf department = [] := by
  cases department <;> rfl

/-! ## §3. A crew merged with itself. -/

/-- A credit with a name that is merged with itself stays as it is. -/
theorem credit_keepsItself {credit : Credit} (hname : credit.name ≠ "") :
    Credit.rule.KeepsItself credit := by
  have hunite : Credit.unite credit credit = credit := by
    unfold Credit.unite
    rw [SortedMap.override_self, Option.or_self]
  refine ⟨?_, fun i j => ?_⟩
  · -- Credits without a name pair with nobody, not even with themselves.
    show (decide (credit.name ≠ "") && decide (credit.name = credit.name)) = true
    simp [hname]
  · show (Credit.unite credit credit, i) = (credit, i)
    rw [hunite]

/-- The credits of canonical people lead back to their appearances. -/
theorem map_creditAppearance {c : Crew} (h : c.Normal) (department : Department) :
    (c.creditsOf department).map creditAppearance = appearances c.names (c.roles department) := by
  unfold creditsOf
  rw [List.map_map]
  refine (List.map_congr_left fun appearance happearance => ?_).trans (List.map_id _)
  exact congrArg (·, appearance.2)
    (h.canonical appearance.1 (mem_names_of_mem_appearances happearance))

/-- **A crew in normal form merged with itself stays what it is.** -/
theorem merge_self {c : Crew} (h : c.Normal) : merge c c = .ok (.replace c c) := by
  have hcredits : ∀ department, mergedCredits c c department = c.creditsOf department :=
    fun department => Credit.rule.mergeLists_self fun credit hcredit =>
      credit_keepsItself fun hempty => (fit_creditsOf h department credit hcredit).2 (.inl hempty)
  rw [merge_eq h.attached h.attached, hcredits, hcredits, hcredits, ofCredits_eq,
    map_creditAppearance h, map_creditAppearance h, map_creditAppearance h]
  exact congrArg (fun fresh => Except.ok (Merged.replace c fresh)) (ofAppearances_of_normal h)

end FilmCatalog.Crew
