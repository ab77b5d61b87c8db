/-
  FilmCatalog.Proofs.Record.Dangling
  ──────────────────────────────────
  **A MERGE FAILS ON DANGLING ROLES ONLY, AND THEN NOTHING IS WRITTEN.**

  A merge comes to the roles of both crews department by department, to the
  stored ones before the incoming ones (`visits`).  Every part of it *checks*
  the roles that it comes to: it stops at the first one that dangles, with an
  error that names it, and otherwise gives a value (`Checks`).  Parts that
  follow one another check their roles in turn (`Checks.bind`), so the whole
  merge checks all of them.

  The merge in place makes all its checks before it writes, and writes what
  the merge of values gives (`run_mergeInPlace_ok`); a failed one leaves the
  crew that was held (`run_mergeInPlace_error`).
-/
import FilmCatalog.Merge.Record
import FilmCatalog.Proofs.Crew.Loading
import FilmCatalog.Proofs.Crew.Merging

namespace FilmCatalog

namespace Crew

/-! ## §1. The roles that a merge comes to. -/

/-- A role that a merge comes to, with its department and the names of its own
side. -/
structure Visit where
  department : Department
  names : List Person
  role : Role

/-- The role points at nobody on its side. -/
def Visit.Dangling (visit : Visit) : Prop :=
  ¬ (0 ≤ visit.role.id ∧ visit.role.id < visit.names.length)

instance (visit : Visit) : Decidable visit.Dangling :=
  inferInstanceAs (Decidable (¬ (0 ≤ visit.role.id ∧ visit.role.id < visit.names.length)))

/-- What is said of a dangling role. -/
def Visit.error (visit : Visit) : MergeError :=
  .danglingRole visit.department.name visit.role.id visit.names.length

/-- The roles of one crew in a department. -/
def visitsOf (c : Crew) (department : Department) : List Visit :=
  (c.roles department).map fun role => ⟨department, c.names, role⟩

/-- The roles of both crews, in the order in which a merge comes to them. -/
def visits (stored incoming : Crew) : List Visit :=
  Department.all.flatMap fun department =>
    stored.visitsOf department ++ incoming.visitsOf department

/-- The first dangling role of some. -/
def firstDanglingVisit? (visits : List Visit) : Option Visit :=
  visits.find? fun visit => visit.Dangling

theorem firstDanglingVisit?_append (visits others : List Visit) :
    firstDanglingVisit? (visits ++ others)
      = (firstDanglingVisit? visits).or (firstDanglingVisit? others) :=
  List.find?_append

theorem mem_visits {stored incoming : Crew} {visit : Visit} :
    visit ∈ visits stored incoming ↔
      ∃ department, visit ∈ stored.visitsOf department ∨ visit ∈ incoming.visitsOf department := by
  unfold visits
  rw [List.mem_flatMap]
  constructor
  · rintro ⟨department, _, h⟩
    exact ⟨department, List.mem_append.1 h⟩
  · rintro ⟨department, h⟩
    refine ⟨department, ?_, List.mem_append.2 h⟩
    cases department <;> decide

/-- No role of a crew dangles if every one is attached. -/
theorem attached_iff_visitsOf {c : Crew} :
    c.Attached ↔ ∀ department, ∀ visit ∈ c.visitsOf department, ¬ visit.Dangling := by
  constructor
  · intro h department visit hvisit
    obtain ⟨role, hrole, rfl⟩ := List.mem_map.1 hvisit
    exact not_not_intro (h.roles department role hrole)
  · intro h role hrole
    obtain ⟨department, hrole⟩ := mem_allRoles.1 hrole
    exact Decidable.not_not.1 (h department _ (List.mem_map_of_mem hrole))

theorem firstDanglingVisit?_eq_none_iff {stored incoming : Crew} :
    firstDanglingVisit? (visits stored incoming) = none ↔
      stored.dangling? = none ∧ incoming.dangling? = none := by
  rw [dangling?_eq_none_iff, dangling?_eq_none_iff, attached_iff_visitsOf, attached_iff_visitsOf]
  unfold firstDanglingVisit?
  rw [List.find?_eq_none]
  simp only [decide_eq_true_eq]
  constructor
  · intro h
    refine ⟨fun department visit hvisit => ?_, fun department visit hvisit => ?_⟩
    · exact h visit (mem_visits.2 ⟨department, .inl hvisit⟩)
    · exact h visit (mem_visits.2 ⟨department, .inr hvisit⟩)
  · rintro ⟨hstored, hincoming⟩ visit hvisit
    obtain ⟨department, hvisit | hvisit⟩ := mem_visits.1 hvisit
    · exact hstored department visit hvisit
    · exact hincoming department visit hvisit

/-! ## §2. Checks. -/

section Checks

variable {α β : Type}

/-- **The result checks some roles**: it is the error of the first dangling
one, or a value if there is none. -/
structure Checks (visits : List Visit) (result : Except MergeError α) : Prop where
  fails : ∀ visit, firstDanglingVisit? visits = some visit → result = .error visit.error
  passes : firstDanglingVisit? visits = none → ∃ value, result = .ok value

theorem checks_ok (value : α) : Checks [] (Except.ok value) where
  fails := nofun
  passes := fun _ => ⟨value, rfl⟩

/-- Two parts, one after the other, check the roles of both in turn. -/
theorem Checks.bind {visits others : List Visit} {first : Except MergeError α}
    {next : α → Except MergeError β} (hfirst : Checks visits first)
    (hnext : ∀ value, first = .ok value → Checks others (next value)) :
    Checks (visits ++ others) (first >>= next) := by
  cases hfound : firstDanglingVisit? visits with
  | some visit =>
    -- The second part is not reached.
    have herror := hfirst.fails visit hfound
    rw [herror]
    constructor
    · intro other hother
      rw [firstDanglingVisit?_append, hfound, Option.some_or] at hother
      cases hother
      rfl
    · intro hnone
      rw [firstDanglingVisit?_append, hfound, Option.some_or] at hnone
      cases hnone
  | none =>
    obtain ⟨value, hvalue⟩ := hfirst.passes hfound
    have hrest := hnext value hvalue
    rw [hvalue]
    constructor
    · intro other hother
      rw [firstDanglingVisit?_append, hfound, Option.none_or] at hother
      exact hrest.fails other hother
    · intro hnone
      rw [firstDanglingVisit?_append, hfound, Option.none_or] at hnone
      exact hrest.passes hnone

/-- The last part of a computation has nothing left to check. -/
theorem Checks.bind_ok {visits : List Visit} {first : Except MergeError α}
    (hfirst : Checks visits first) (last : α → β) :
    Checks visits (first >>= fun value => .ok (last value)) := by
  have h : Checks (visits ++ []) (first >>= fun value => .ok (last value)) :=
    hfirst.bind fun value _ => checks_ok (last value)
  rwa [List.append_nil] at h

end Checks

/-- One role: it has a person, or it stops the credits of its department. -/
theorem checks_credits (department : Department) (names : List Person) (roles : List Role) :
    Checks (roles.map fun role => ⟨department, names, role⟩) (credits department names roles) := by
  induction roles with
  | nil => exact checks_ok []
  | cons role rest ih =>
    have hdangling : (Visit.mk department names role).Dangling ↔ personAt? names role.id = none := by
      show ¬ (0 ≤ role.id ∧ role.id < names.length) ↔ _
      rw [← isSome_personAt?_iff, Option.not_isSome_iff_eq_none]
    rw [List.map_cons, credits]
    cases hperson : personAt? names role.id with
    | none =>
      have hhead : firstDanglingVisit? (⟨department, names, role⟩ :: rest.map fun role =>
          ⟨department, names, role⟩) = some ⟨department, names, role⟩ :=
        List.find?_cons_of_pos (decide_eq_true (hdangling.2 hperson))
      constructor
      · intro visit hvisit
        rw [hhead] at hvisit
        cases hvisit
        rfl
      · intro hnone
        rw [hhead] at hnone
        cases hnone
    | some person =>
      have hattached : ¬ (Visit.mk department names role).Dangling := by
        rw [hdangling, hperson]
        exact Option.some_ne_none person
      have hhead : firstDanglingVisit? [⟨department, names, role⟩] = none :=
        List.find?_eq_none.2 (by simp [hattached])
      have hfirst : Checks [⟨department, names, role⟩]
          (Except.ok (ε := MergeError) (Credit.ofPerson person role.contribution)) := by
        constructor
        · intro visit hvisit
          rw [hhead] at hvisit
          cases hvisit
        · exact fun _ => ⟨_, rfl⟩
      exact hfirst.bind fun credit _ => ih.bind_ok (credit :: ·)

theorem checks_mergeCredits (stored incoming : Crew) (department : Department) :
    Checks (stored.visitsOf department ++ incoming.visitsOf department)
      (mergeCredits stored incoming department) := by
  apply (checks_credits department stored.names (stored.roles department)).bind
  intro older _
  exact (checks_credits department incoming.names (incoming.roles department)).bind_ok
    fun newer => Credit.rule.mergeLists older newer

/-- **The merge of two crews checks all their roles.** -/
theorem checks_merge (stored incoming : Crew) :
    Checks (visits stored incoming) (merge stored incoming) := by
  have hvisits : visits stored incoming
      = (stored.visitsOf .directors ++ incoming.visitsOf .directors)
        ++ ((stored.visitsOf .writers ++ incoming.visitsOf .writers)
          ++ (stored.visitsOf .cast ++ incoming.visitsOf .cast)) := by
    simp [visits, Department.all]
  rw [hvisits]
  apply (checks_mergeCredits stored incoming .directors).bind
  intro directors _
  apply (checks_mergeCredits stored incoming .writers).bind
  intro writers _
  exact (checks_mergeCredits stored incoming .cast).bind_ok
    fun cast => Merged.replace stored (ofCredits directors writers cast)

/-- A merge that succeeds found no dangling role, and tells whether the crew is
another one. -/
theorem eq_replace_of_merge {stored incoming : Crew} {merged : Merged Crew}
    (h : merge stored incoming = .ok merged) : merged = .replace stored merged.value := by
  have hnone : firstDanglingVisit? (visits stored incoming) = none := by
    rw [Option.eq_none_iff_forall_ne_some]
    intro visit hvisit
    rw [(checks_merge stored incoming).fails visit hvisit] at h
    cases h
  obtain ⟨hstored, hincoming⟩ := firstDanglingVisit?_eq_none_iff.1 hnone
  rw [merge_eq (dangling?_eq_none_iff.1 hstored) (dangling?_eq_none_iff.1 hincoming)] at h
  cases h
  rfl

/-! ## §3. The merge in place. -/

theorem setRoles_self (c : Crew) (department : Department) :
    c.setRoles (c.roles department) department = c := by
  cases department <;> rfl

theorem run_writeRoles (department : Department) (roles : List Role) (held : Crew) :
    (writeRoles department roles).run held
      = (.ofChanged (held.roles department ≠ roles), held.setRoles roles department) := by
  unfold writeRoles
  rw [StateT.run_bind, StateT.run_get, pure_bind]
  by_cases h : held.roles department = roles
  · -- Nothing is written, and writing the same roles would change nothing.
    rw [if_pos h, ← h, setRoles_self]
    show (Outcome.unchanged, held) = _
    simp [Outcome.ofChanged]
  · rw [if_neg h]
    show (Outcome.updated, held.setRoles roles department) = _
    simp [Outcome.ofChanged, h]

theorem run_writeNames (names : List Person) (held : Crew) :
    (writeNames names).run held
      = (.ofChanged (held.names ≠ names), { held with names }) := by
  unfold writeNames
  rw [StateT.run_bind, StateT.run_get, pure_bind]
  by_cases h : held.names = names
  · rw [if_pos h, ← h]
    show (Outcome.unchanged, held) = _
    simp [Outcome.ofChanged]
  · rw [if_neg h]
    show (Outcome.updated, { held with names }) = _
    simp [Outcome.ofChanged, h]

/-- The roles of a crew by department, as they are written. -/
def lists (c : Crew) : List (Department × List Role) :=
  Department.all.map fun department => (department, c.roles department)

/-- **Writing all parts of a crew over another one** gives that crew, and tells
whether it is another one. -/
theorem run_writeAll (fresh held : Crew) :
    (writeAll fresh.lists fresh.names).run held
      = ((Merged.replace held fresh).outcome, fresh) := by
  have hchanged : decide (held ≠ fresh) = (decide (held.directors ≠ fresh.directors) ||
      decide (held.writers ≠ fresh.writers) || decide (held.cast ≠ fresh.cast) ||
      decide (held.names ≠ fresh.names)) := by
    cases held
    cases fresh
    simp [Bool.or_assoc]
  have habsorb : ∀ a b c d : Bool,
      (Outcome.ofChanged a).absorb ((Outcome.ofChanged b).absorb
        ((Outcome.ofChanged c).absorb (.ofChanged d))) = .ofChanged (a || b || c || d) := by decide
  simp only [writeAll, lists, Department.all, List.map_cons, List.map_nil, StateT.run_bind,
    run_writeRoles, run_writeNames]
  -- No part is written twice, so each one is compared with what was held at first.
  show (Outcome.absorb (.ofChanged (held.directors ≠ fresh.directors)) (Outcome.absorb
    (.ofChanged (held.writers ≠ fresh.writers)) (Outcome.absorb (.ofChanged (held.cast ≠ fresh.cast))
      (.ofChanged (held.names ≠ fresh.names)))), fresh) = _
  rw [habsorb, ← hchanged]
  rfl

/-- What is merged before the first write is the merged crew, part by part. -/
theorem mergedRoles_all (stored incoming : Crew) :
    mergedRoles stored incoming [] Department.all
      = (merge stored incoming).map fun merged => (merged.value.lists, merged.value.names) := by
  unfold merge Department.all
  simp only [mergedRoles]
  cases mergeCredits stored incoming .directors with
  | error error => rfl
  | ok directors =>
    cases mergeCredits stored incoming .writers with
    | error error => rfl
    | ok writers =>
      cases mergeCredits stored incoming .cast with
      | error error => rfl
      | ok cast => rfl

section InPlace

variable {stored incoming : Crew}

/-- **A merge in place that fails writes nothing.** -/
theorem run_mergeInPlace_error {error : MergeError} (h : merge stored incoming = .error error) :
    (mergeInPlace incoming).run.run stored = (.error error, stored) := by
  have hroles : mergedRoles stored incoming [] Department.all = .error error := by
    rw [mergedRoles_all, h]
    rfl
  show ((liftM (mergedRoles stored incoming [] Department.all) : ExceptT MergeError (StateM Crew) _)
    >>= fun merged => liftM (writeAll merged.1 merged.2)).run.run stored = _
  rw [hroles]
  rfl

/-- **A merge in place that succeeds writes the merged crew.** -/
theorem run_mergeInPlace_ok {merged : Merged Crew} (h : merge stored incoming = .ok merged) :
    (mergeInPlace incoming).run.run stored = (.ok merged.outcome, merged.value) := by
  have hroles : mergedRoles stored incoming [] Department.all
      = .ok (merged.value.lists, merged.value.names) := by
    rw [mergedRoles_all, h]
    rfl
  have houtcome : (Merged.replace stored merged.value).outcome = merged.outcome :=
    congrArg Merged.outcome (eq_replace_of_merge h).symm
  have hwrite := run_writeAll merged.value stored
  show ((liftM (mergedRoles stored incoming [] Department.all) : ExceptT MergeError (StateM Crew) _)
    >>= fun merged => liftM (writeAll merged.1 merged.2)).run.run stored = _
  rw [hroles]
  show (Except.ok ((writeAll merged.value.lists merged.value.names).run stored).1,
    ((writeAll merged.value.lists merged.value.names).run stored).2) = _
  rw [hwrite, houtcome]

end InPlace

end Crew

/-! ## §4. Records. -/

/-- **A merge of records fails on dangling roles only, and writes nothing then.**
It fails if a role of either side dangles.  The error stands in the field
`crew` and names the first such role, with the number of names on its own
side.  The merge in place fails exactly if this one does, with the same error
and with the crew as it was; else it leaves the crew of the merged record. -/
theorem Record.merge_fails_iff_dangling (prefs : Preferences) (stored incoming : Record) :
    ((∃ error, merge prefs stored incoming = .error error) ↔
        stored.crew.dangling?.isSome ∨ incoming.crew.dangling?.isSome) ∧
      (∀ error, merge prefs stored incoming = .error error →
        ∃ before visit after, Crew.visits stored.crew incoming.crew = before ++ visit :: after ∧
          (∀ earlier ∈ before, ¬ earlier.Dangling) ∧ visit.Dangling ∧
          error = .field "crew" (.danglingRole visit.department.name visit.role.id
            visit.names.length)) ∧
      (∀ error after, (Crew.mergeInPlace incoming.crew).run.run stored.crew = (.error error, after) ↔
        after = stored.crew ∧ merge prefs stored incoming = .error (.field "crew" error)) ∧
      (∀ merged, merge prefs stored incoming = .ok merged → ∃ outcome,
        (Crew.mergeInPlace incoming.crew).run.run stored.crew = (.ok outcome, merged.record.crew)) := by
  have hchecks := Crew.checks_merge stored.crew incoming.crew
  have hfield : ∀ error, stored.crew.merge incoming.crew = .error error →
      merge prefs stored incoming = .error (.field "crew" error) := by
    intro error herror
    unfold merge
    rw [herror]
  cases hfound : Crew.firstDanglingVisit? (Crew.visits stored.crew incoming.crew) with
  | none =>
    -- The crews can be merged, and nothing else can fail.
    obtain ⟨crew, hcrew⟩ := hchecks.passes hfound
    have hok : merge prefs stored incoming = .ok (mergeWith prefs stored incoming crew) := by
      unfold merge
      rw [hcrew]
    obtain ⟨hstored, hincoming⟩ := Crew.firstDanglingVisit?_eq_none_iff.1 hfound
    rw [hok, hstored, hincoming, Crew.run_mergeInPlace_ok hcrew]
    refine ⟨by simp, by simp, fun error after => ⟨fun hrun => ?_, by simp⟩, fun merged hmerged => ?_⟩
    · cases congrArg Prod.fst hrun
    · rw [← Except.ok.inj hmerged]
      exact ⟨crew.outcome, rfl⟩
  | some visit =>
    have herror := hchecks.fails visit hfound
    rw [hfield _ herror, Crew.run_mergeInPlace_error herror]
    refine ⟨⟨fun _ => ?_, fun _ => ⟨_, rfl⟩⟩, ?_, fun error after => ⟨?_, ?_⟩, by simp⟩
    · rw [Option.isSome_iff_ne_none, Option.isSome_iff_ne_none, ← not_and_or,
        ← Crew.firstDanglingVisit?_eq_none_iff, hfound]
      nofun
    · intro error hmerge
      cases hmerge
      obtain ⟨hdangling, before, after, hvisits, hbefore⟩ :=
        List.find?_eq_some_iff_append.1 hfound
      refine ⟨before, visit, after, hvisits, fun earlier hearlier => ?_, of_decide_eq_true hdangling, rfl⟩
      simpa using hbefore earlier hearlier
    · intro hrun
      cases hrun
      exact ⟨rfl, rfl⟩
    · rintro ⟨rfl, hmerge⟩
      cases hmerge
      rfl

end FilmCatalog
