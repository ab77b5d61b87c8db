/-
  FilmCatalog.Proofs.Merging
  ──────────────────────────
  **OUTCOMES OF A MERGE.**

  A merge is *exact* when its outcome tells whether the value is another one.
  Single values are merged exactly by all three rules.  Languages are merged
  one after the other, and there two facts carry over from one step to the
  run:

    • a run of steps that each leave the map leaves the map
      (`run_keep`),
    • a run of exact steps is exact if each step works in its own language
      only and no language comes twice (`Local.exact_run`).
-/
import FilmCatalog.Merge.Weave
import FilmCatalog.Proofs.SortedMap

namespace FilmCatalog

/-! ## §1. Outcomes. -/

namespace Outcome

/-- Whether something changed or not, something was there. -/
theorem ofChanged_ne_absent (changed : Bool) : ofChanged changed ≠ .absent := by
  cases changed <;> simp [ofChanged]

theorem ofChanged_eq_unchanged_iff {changed : Bool} :
    ofChanged changed = .unchanged ↔ changed = false := by
  cases changed <;> simp [ofChanged]

theorem absorb_ne_absent {before after : Outcome} (h : before ≠ .absent) :
    before.absorb after ≠ .absent := by
  cases before <;> cases after <;> simp_all [absorb]

/-- Where both parts are there, nothing changed exactly if nothing changed in
either. -/
theorem absorb_eq_unchanged_iff {before after : Outcome} (hbefore : before ≠ .absent)
    (hafter : after ≠ .absent) :
    before.absorb after = .unchanged ↔ before = .unchanged ∧ after = .unchanged := by
  cases before <;> cases after <;> simp_all [absorb]

/-- Several steps changed nothing if each of them changed nothing. -/
theorem foldl_absorb {outcomes : List Outcome} (h : ∀ outcome ∈ outcomes, outcome ≠ .absent)
    (start : Outcome) (hstart : start ≠ .absent) :
    outcomes.foldl absorb start ≠ .absent ∧
      (outcomes.foldl absorb start = .unchanged ↔
        start = .unchanged ∧ ∀ outcome ∈ outcomes, outcome = .unchanged) := by
  induction outcomes generalizing start with
  | nil => simp [hstart]
  | cons outcome rest ih =>
    obtain ⟨houtcome, hrest⟩ := List.forall_mem_cons.1 h
    rw [List.foldl_cons, List.forall_mem_cons, ← and_assoc,
      ← absorb_eq_unchanged_iff hstart houtcome]
    exact ih hrest (start.absorb outcome) (absorb_ne_absent hstart)

end Outcome

namespace Merged

variable {α : Type}

/-! ## §2. Exact merges of single values. -/

/-- The outcome tells whether the merged value differs from the stored
one. -/
def Exact [DecidableEq α] (stored : α) (merged : Merged α) : Prop :=
  merged.outcome = .ofChanged (stored ≠ merged.value)

section Exact

variable [DecidableEq α]

/-- An exact merge says something. -/
theorem Exact.ne_absent {stored : α} {merged : Merged α} (h : Exact stored merged) :
    merged.outcome ≠ .absent := by
  rw [h]
  exact Outcome.ofChanged_ne_absent _

/-- An exact merge says that nothing changed exactly if nothing did. -/
theorem Exact.unchanged_iff {stored : α} {merged : Merged α} (h : Exact stored merged) :
    merged.outcome = .unchanged ↔ merged.value = stored := by
  rw [h, Outcome.ofChanged_eq_unchanged_iff, decide_eq_false_iff_not, ne_eq, Decidable.not_not,
    eq_comm]

/-- An exact merge says that something changed exactly if something did. -/
theorem Exact.updated_iff {stored : α} {merged : Merged α} (h : Exact stored merged) :
    merged.outcome = .updated ↔ merged.value ≠ stored := by
  have habsent := h.ne_absent
  rw [ne_eq, ← h.unchanged_iff]
  cases houtcome : merged.outcome with
  | absent => exact absurd houtcome habsent
  | unchanged => simp
  | updated => simp

/-- Saying so when nothing changed is enough to be exact. -/
theorem exact_of_iff {stored : α} {merged : Merged α} (hpresent : merged.outcome ≠ .absent)
    (h : merged.outcome = .unchanged ↔ merged.value = stored) : Exact stored merged := by
  unfold Exact
  by_cases hsame : merged.value = stored
  · simp [h.2 hsame, hsame, Outcome.ofChanged]
  · have hne : merged.outcome ≠ .unchanged := fun houtcome => hsame (h.1 houtcome)
    have hchanged : stored ≠ merged.value := Ne.symm hsame
    cases hcase : merged.outcome <;> simp_all [Outcome.ofChanged]

theorem exact_keep (value : α) : Exact value (keep value) := by simp [Exact, keep, Outcome.ofChanged]

theorem exact_replace (stored incoming : α) : Exact stored (replace stored incoming) := rfl

/-- An optional value is merged exactly. -/
theorem exact_optional (stored incoming : Option α) : Exact stored (optional stored incoming) := by
  cases incoming with
  | none => exact exact_keep stored
  | some value => exact exact_replace stored (some value)

/-- A preferred side does not make the outcome less exact. -/
theorem exact_preferred (prefer : Preference) (stored incoming : Option α) :
    Exact stored (preferred prefer stored incoming) := by
  cases prefer with
  | theirs => exact exact_optional stored incoming
  | mine =>
    cases stored with
    | none => exact exact_optional none incoming
    | some value => exact exact_keep (some value)

/-- Three parts that are merged exactly make a whole that is. -/
theorem exact_three {β γ δ : Type} [DecidableEq β] [DecidableEq γ] [DecidableEq δ]
    (make : β → γ → δ → α) {x : β} {y : γ} {z : δ}
    (hmake : ∀ x' y' z', make x' y' z' = make x y z ↔ x' = x ∧ y' = y ∧ z' = z)
    {mx : Merged β} {my : Merged γ} {mz : Merged δ} (hx : Exact x mx) (hy : Exact y my)
    (hz : Exact z mz) :
    Exact (make x y z)
      ⟨make mx.value my.value mz.value, (mx.outcome.absorb my.outcome).absorb mz.outcome⟩ := by
  have hpair : mx.outcome.absorb my.outcome ≠ .absent := Outcome.absorb_ne_absent hx.ne_absent
  refine exact_of_iff (Outcome.absorb_ne_absent hpair) ?_
  rw [Outcome.absorb_eq_unchanged_iff hpair hz.ne_absent,
    Outcome.absorb_eq_unchanged_iff hx.ne_absent hy.ne_absent, hx.unchanged_iff, hy.unchanged_iff,
    hz.unchanged_iff, hmake, and_assoc]

theorem replace_self (value : α) : replace value value = keep value := by
  simp [replace, keep, Outcome.ofChanged]

theorem optional_self (value : Option α) : optional value value = keep value := by
  cases value with
  | none => rfl
  | some value => exact replace_self (some value)

theorem preferred_self (prefer : Preference) (value : Option α) :
    preferred prefer value value = keep value := by
  cases prefer with
  | theirs => exact optional_self value
  | mine =>
    cases value with
    | none => rfl
    | some value => rfl

end Exact

/-! ## §3. Runs over languages. -/

section Runs

variable {step : Translated α → String → α → Merged (Translated α)}

/-- The steps of a run: one language after the other. -/
def run (step : Translated α → String → α → Merged (Translated α)) (entries : List (String × α))
    (merged : Merged (Translated α)) : Merged (Translated α) :=
  entries.foldl (fun merged entry => merged.andThen fun m => step m entry.1 entry.2) merged

/-- One entry more is one step more. -/
theorem run_cons (entry : String × α) (rest : List (String × α)) (merged : Merged (Translated α)) :
    run step (entry :: rest) merged
      = run step rest (merged.andThen fun m => step m entry.1 entry.2) := rfl

/-- The values of a run do not depend on its outcomes. -/
theorem value_run (entries : List (String × α)) (merged : Merged (Translated α)) :
    (run step entries merged).value
      = entries.foldl (fun m entry => (step m entry.1 entry.2).value) merged.value := by
  induction entries generalizing merged with
  | nil => rfl
  | cons entry rest ih => exact ih _

/-- What every step keeps is kept by the run. -/
theorem run_induction {P : Translated α → Prop} {entries : List (String × α)}
    {merged : Merged (Translated α)} (hstart : P merged.value)
    (hstep : ∀ entry ∈ entries, ∀ m, P m → P (step m entry.1 entry.2).value) :
    P (run step entries merged).value := by
  induction entries generalizing merged with
  | nil => exact hstart
  | cons entry rest ih =>
    rw [run_cons]
    exact ih (hstep entry List.mem_cons_self _ hstart) fun other hother =>
      hstep other (List.mem_cons_of_mem _ hother)

theorem eq_mk {merged : Merged α} {value : α} {outcome : Outcome} (hvalue : merged.value = value)
    (houtcome : merged.outcome = outcome) : merged = ⟨value, outcome⟩ := by
  cases merged
  cases hvalue
  cases houtcome
  rfl

/-- A value that is kept has no influence on the outcome of the next step. -/
theorem keep_andThen {value : α} {next : α → Merged α} (h : (next value).outcome ≠ .absent) :
    (keep value).andThen next = next value := by
  refine eq_mk rfl ?_
  show Outcome.unchanged.absorb (next value).outcome = (next value).outcome
  cases ho : (next value).outcome <;> simp_all [Outcome.absorb]

/-- A last step that changes nothing leaves the outcome of the others. -/
theorem andThen_keep {first : Merged α} {next : α → Merged α} (hpresent : first.outcome ≠ .absent)
    (h : next first.value = keep first.value) : first.andThen next = first := by
  obtain ⟨value, outcome⟩ := first
  refine eq_mk (congrArg Merged.value h) ?_
  show outcome.absorb (next value).outcome = outcome
  rw [h]
  cases outcome <;> simp_all [keep, Outcome.absorb]

/-- An update sticks. -/
theorem outcome_run_updated (entries : List (String × α)) (m : Translated α) :
    (run step entries ⟨m, .updated⟩).outcome = .updated := by
  induction entries generalizing m with
  | nil => rfl
  | cons entry rest ih =>
    have hfirst : ((Merged.mk m .updated).andThen fun m => step m entry.1 entry.2)
        = ⟨(step m entry.1 entry.2).value, .updated⟩ := eq_mk rfl (Outcome.updated_absorb _)
    rw [run_cons, hfirst]
    exact ih _

/-- Steps that leave the map as it is make a run that does so. -/
theorem run_keep {entries : List (String × α)} {m : Translated α}
    (h : ∀ entry ∈ entries, step m entry.1 entry.2 = keep m) :
    run step entries (keep m) = keep m := by
  induction entries with
  | nil => rfl
  | cons entry rest ih =>
    obtain ⟨hentry, hrest⟩ := List.forall_mem_cons.1 h
    have hpresent : (step m entry.1 entry.2).outcome ≠ .absent := by
      rw [hentry]
      simp [keep]
    rw [run_cons, keep_andThen hpresent, hentry]
    exact ih hrest

/-- A step that works in its own language only, and tells exactly what it did
there. -/
structure Local [DecidableEq α] (step : Translated α → String → α → Merged (Translated α)) :
    Prop where
  elsewhere : ∀ m tag value other, tag ≠ other →
    SortedMap.get? (step m tag value).value other = SortedMap.get? m other
  there : ∀ m tag value, (step m tag value).outcome
    = .ofChanged (SortedMap.get? m tag ≠ SortedMap.get? (step m tag value).value tag)

/-- A language that no step works in stays as it is. -/
theorem Local.get?_run [DecidableEq α] (h : Local step) {tag : String} (entries : List (String × α))
    (htag : tag ∉ entries.map (·.1)) (merged : Merged (Translated α)) :
    SortedMap.get? (run step entries merged).value tag = SortedMap.get? merged.value tag := by
  refine run_induction (P := fun m => SortedMap.get? m tag = SortedMap.get? merged.value tag) rfl ?_
  intro entry hentry m hm
  have hne : entry.1 ≠ tag := fun heq => htag (heq ▸ List.mem_map_of_mem hentry)
  rw [h.elsewhere m entry.1 entry.2 tag hne, hm]

/-- **A run of local steps is exact**, if no language comes twice. -/
theorem Local.exact_run [DecidableEq α] (h : Local step) {entries : List (String × α)}
    (hkeys : (entries.map (·.1)).Nodup) (stored : Translated α) :
    Exact stored (run step entries (keep stored)) := by
  induction entries with
  | nil => exact exact_keep stored
  | cons entry rest ih =>
    obtain ⟨hentry, hrest⟩ := List.nodup_cons.1 hkeys
    have hthere := h.there stored entry.1 entry.2
    have hpresent : (step stored entry.1 entry.2).outcome ≠ .absent := by
      rw [hthere]
      exact Outcome.ofChanged_ne_absent _
    rw [run_cons, keep_andThen hpresent]
    by_cases heq : SortedMap.get? stored entry.1
        = SortedMap.get? (step stored entry.1 entry.2).value entry.1
    · -- Nothing changed in this language, hence nowhere.
      have hvalue : (step stored entry.1 entry.2).value = stored := by
        refine SortedMap.ext_get? fun other => ?_
        by_cases hother : entry.1 = other
        · rw [← hother, heq]
        · exact h.elsewhere stored entry.1 entry.2 other hother
      have hstep : step stored entry.1 entry.2 = keep stored := by
        refine eq_mk hvalue ?_
        rw [hthere, decide_eq_false (fun hne => hne heq)]
        rfl
      rw [hstep]
      exact ih hrest
    · -- A change in this language is there to the end.
      have hstep : step stored entry.1 entry.2
          = ⟨(step stored entry.1 entry.2).value, .updated⟩ := by
        refine eq_mk rfl ?_
        rw [hthere, decide_eq_true heq]
        rfl
      have hvalue : stored ≠ (run step rest (step stored entry.1 entry.2)).value := by
        intro hsame
        refine heq ?_
        rw [← h.get?_run rest hentry, ← hsame]
      unfold Exact
      rw [decide_eq_true hvalue, hstep, outcome_run_updated]
      rfl

end Runs

/-! ## §4. Values by language. -/

/-- Languages merged with themselves stay, if each value does. -/
theorem languages_self {mergeOne : α → α → Merged α} (h : ∀ value, mergeOne value value = keep value)
    (m : Translated α) : languages mergeOne m m = keep m := by
  -- Each step finds its own value in the map and puts it back.
  refine run_keep fun entry hentry => ?_
  have hget := SortedMap.get?_of_mem_entries hentry
  unfold language
  rw [hget]
  simp only [h]
  show Merged.mk (SortedMap.insert m entry.1 entry.2) .unchanged = keep m
  rw [SortedMap.insert_of_get? hget]
  rfl

/-- **What the merge of one value keeps, the merge of languages keeps** for
every stored one. -/
theorem exists_languages {mergeOne : α → α → Merged α} {P : α → Prop}
    (hstep : ∀ value incoming, P value → P (mergeOne value incoming).value)
    {stored : Translated α} {tag : String} {value : α}
    (hvalue : SortedMap.get? stored tag = some value) (hP : P value) (incoming : Translated α) :
    ∃ kept, SortedMap.get? (languages mergeOne stored incoming).value tag = some kept ∧ P kept := by
  show ∃ kept, SortedMap.get? (run (language mergeOne) incoming.entries (keep stored)).value tag
    = some kept ∧ P kept
  refine run_induction (P := fun m => ∃ kept, SortedMap.get? m tag = some kept ∧ P kept)
    ⟨value, hvalue, hP⟩ ?_
  rintro entry _ m ⟨kept, hkept, hP⟩
  unfold language
  by_cases hsame : entry.1 = tag
  · rw [hsame, hkept]
    exact ⟨_, SortedMap.get?_insert_self _ _ _, hstep kept entry.2 hP⟩
  · cases SortedMap.get? m entry.1 with
    | none => exact ⟨kept, (SortedMap.get?_insert_of_ne _ _ hsame).trans hkept, hP⟩
    | some current => exact ⟨kept, (SortedMap.get?_insert_of_ne _ _ hsame).trans hkept, hP⟩

/-- A text in one language is merged without a look at the others. -/
theorem local_language_replace [DecidableEq α] :
    Local (language (replace : α → α → Merged α)) where
  elsewhere := by
    intro m tag value other hne
    unfold language
    cases SortedMap.get? m tag with
    | none => exact SortedMap.get?_insert_of_ne m value hne
    | some current => exact SortedMap.get?_insert_of_ne m value hne
  there := by
    intro m tag value
    unfold language
    cases hget : SortedMap.get? m tag with
    | none =>
      simp only [change, SortedMap.get?_insert_self]
      rfl
    | some current =>
      simp only [into, replace, SortedMap.get?_insert_self, ne_eq, Option.some.injEq]

/-- Texts by language are merged exactly. -/
theorem exact_texts (stored incoming : Translated String) :
    Exact stored (texts stored incoming) :=
  local_language_replace.exact_run (Entries.nodup_keys incoming.ascending) stored

theorem texts_self (m : Translated String) : texts m m = keep m := languages_self replace_self m

end Merged

namespace WeaveRule

variable {α : Type} [DecidableEq α]

theorem exact_merge (rule : WeaveRule α) (stored incoming : List α) :
    (rule.merge stored incoming).Exact stored := Merged.exact_replace _ _

end WeaveRule

end FilmCatalog
