/-
  FilmCatalog.Proofs.Loading
  ──────────────────────────
  **WHAT A SUCCESSFUL LOAD GUARANTEES.**

  Three notions describe a load, and each passes through every way to put
  loads together:

      Ensures P   if the load succeeds, `P` holds of the value it leaves
      Yields P    the same, of a load that also found something
      Quiet v     the load succeeds with the value `v`, without a note and
                  without an update

  Fields keep what was held if they are absent, so they need `Ensures`.
  Optional values, items of lists and languages leave out what is absent, so
  `Yields` is enough for them.
-/
import Mathlib.Data.List.Forall2
import FilmCatalog.Translated
import FilmCatalog.Proofs.SortedMap

namespace FilmCatalog

/-! ## §1. Guarantees of a load. -/

namespace Loaded

variable {α β : Type}

/-- If the load succeeds, `P` holds of its value. -/
def Ensures (loaded : Loaded α) (P : α → Prop) : Prop :=
  ∀ outcome, loaded.result = .ok outcome → P loaded.value

/-- If the load succeeds and found something, `P` holds of its value. -/
def Yields (loaded : Loaded α) (P : α → Prop) : Prop :=
  ∀ outcome, loaded.result = .ok outcome → outcome ≠ .absent → P loaded.value

/-- What every successful load has, one that found something has. -/
theorem Ensures.yields {loaded : Loaded α} {P : α → Prop} (h : loaded.Ensures P) :
    loaded.Yields P := fun outcome hresult _ => h outcome hresult

/-- A guarantee implies every weaker one. -/
theorem Ensures.imp {loaded : Loaded α} {P Q : α → Prop} (h : loaded.Ensures P)
    (hPQ : ∀ value, P value → Q value) : loaded.Ensures Q :=
  fun outcome hresult => hPQ _ (h outcome hresult)

/-- Two guarantees hold together. -/
theorem Ensures.and {loaded : Loaded α} {P Q : α → Prop} (hP : loaded.Ensures P)
    (hQ : loaded.Ensures Q) : loaded.Ensures fun value => P value ∧ Q value :=
  fun outcome hresult => ⟨hP outcome hresult, hQ outcome hresult⟩

theorem ensures_done {value : α} {outcome : Outcome} {P : α → Prop} (h : P value) :
    (done value outcome).Ensures P := fun _ _ => h

theorem ensures_repaired {value : α} {note : String} {P : α → Prop} (h : P value) :
    (repaired value note).Ensures P := fun _ _ => h

/-- A load that fails promises nothing of its value. -/
theorem ensures_failed {value : α} {error : LoadError} {P : α → Prop} :
    (failed value error).Ensures P := by
  intro outcome hresult
  cases hresult

/-- If the load succeeds, its outcome and its value are as `R` says. -/
def Reports (loaded : Loaded α) (R : Outcome → α → Prop) : Prop :=
  ∀ outcome, loaded.result = .ok outcome → R outcome loaded.value

/-- Two steps succeed one after the other. -/
theorem andThen_ok {first : Loaded α} {next : α → Loaded α} {outcome : Outcome}
    (h : (first.andThen next).result = .ok outcome) :
    (first.andThen next).value = (next first.value).value ∧
      ∃ before after, first.result = .ok before ∧ (next first.value).result = .ok after
        ∧ outcome = before.absorb after := by
  unfold andThen at h ⊢
  cases hfirst : first.result with
  | error error =>
    simp only [hfirst] at h
    cases h
  | ok before =>
    simp only [hfirst] at h ⊢
    cases hsecond : (next first.value).result with
    | error error =>
      rw [hsecond] at h
      cases h
    | ok after =>
      rw [hsecond] at h
      cases h
      exact ⟨trivial, before, after, rfl, rfl, rfl⟩

/-- **Sequencing**: the second step may rely on what the first one reports. -/
theorem reports_andThen {first : Loaded α} {next : α → Loaded α} {R S : Outcome → α → Prop}
    (hfirst : first.Reports R)
    (hnext : ∀ before value, R before value →
      (next value).Reports fun after result => S (before.absorb after) result) :
    (first.andThen next).Reports S := by
  intro outcome hresult
  obtain ⟨hvalue, before, after, hbefore, hafter, rfl⟩ := andThen_ok hresult
  rw [hvalue]
  exact hnext before first.value (hfirst before hbefore) after hafter

/-- A guarantee of the first step is what the second one can rely on. -/
theorem ensures_andThen {first : Loaded α} {next : α → Loaded α} {P Q : α → Prop}
    (hfirst : first.Ensures P) (hnext : ∀ value, P value → (next value).Ensures Q) :
    (first.andThen next).Ensures Q :=
  reports_andThen (R := fun _ => P) (S := fun _ => Q) hfirst fun _ => hnext

/-- What holds of the value held so far, and is kept by the next step, holds
afterwards. -/
theorem Ensures.andThen {loaded : Loaded α} {next : α → Loaded α} {P : α → Prop}
    (h : loaded.Ensures P) (hnext : ∀ value, P value → (next value).Ensures P) :
    (loaded.andThen next).Ensures P := ensures_andThen h hnext

/-- The guarantee of a part is one of the whole that the part is put into. -/
theorem ensures_into {loaded : Loaded α} {place : α → β} {P : β → Prop}
    (h : loaded.Ensures fun value => P (place value)) : (loaded.into place).Ensures P := h

/-- The key of a field appears in errors only. -/
theorem ensures_under {loaded : Loaded α} {key : String} {P : α → Prop} (h : loaded.Ensures P) :
    (loaded.under key).Ensures P := by
  intro outcome hresult
  unfold under at hresult
  cases hok : loaded.result with
  | error error =>
    rw [hok] at hresult
    cases hresult
  | ok before => exact h before hok

theorem yields_under {loaded : Loaded α} {P : α → Prop} (h : loaded.Yields P) (key : String) :
    (loaded.under key).Yields P := by
  intro outcome hresult hpresent
  unfold under at hresult
  cases hok : loaded.result with
  | error error =>
    rw [hok] at hresult
    cases hresult
  | ok before =>
    rw [hok] at hresult
    cases hresult
    exact h outcome hok hpresent

end Loaded

/-! ## §2. Guarantees of fields, lists and languages. -/

section Guarantees

open Loaded

variable {α : Type} {load : Loader α} {P : α → Prop}

/-- A scalar has what is known of every value that its node can be read as. -/
theorem ensures_loadScalar {expected : String} {read : Json → Option α} {old : α} {node : Json}
    (h : ∀ value, read node = some value → P value) :
    (loadScalar expected read old node).Ensures P := by
  unfold loadScalar
  cases hread : read node with
  | none => exact ensures_failed
  | some value => exact ensures_done (h value hread)

/-- Only objects are loaded, so the guarantee is one of their fields. -/
theorem ensures_withFields {old : α} {node : Json} {loadFields : Json.Fields → Loaded α}
    (h : ∀ fields, node = .object fields → (loadFields fields).Ensures P) :
    (withFields old node loadFields).Ensures P := by
  unfold withFields
  cases node with
  | object fields => exact h fields rfl
  | _ => exact ensures_failed

/-- A field that is missing leaves the old value, which needs the property too. -/
theorem ensures_loadField {fields : Json.Fields} {key : String} {old : α} (hold : P old)
    (h : ∀ node, fields.get? key = some node → (load old node).Ensures P) :
    (loadField load fields key old).Ensures P := by
  unfold loadField
  split
  · exact ensures_done hold
  · exact ensures_done hold
  · rename_i node _ hnode
    exact ensures_under (h node hnode)

/-- A field that is found has what its loader yields. -/
theorem yields_loadField {old : α} (h : ∀ node, (load old node).Yields P)
    (fields : Json.Fields) (key : String) : (loadField load fields key old).Yields P := by
  unfold loadField
  split
  · intro outcome hresult hpresent
    cases hresult
    exact absurd rfl hpresent
  · intro outcome hresult hpresent
    cases hresult
    exact absurd rfl hpresent
  · exact yields_under (h _) key

/-- An optional value that was loaded has what its loader yields. -/
theorem ensures_loadOptional {fresh : α} {fields : Json.Fields} {key : String} {old : Option α}
    (h : ∀ node, (load fresh node).Yields P) :
    (loadOptional load fresh fields key old).Ensures fun value => ∀ x ∈ value, P x := by
  have hfield := yields_loadField h fields key
  intro outcome hresult x hx
  unfold loadOptional at hresult hx
  cases hok : (loadField load fields key fresh).result with
  | error error =>
    simp only [hok, into] at hresult
    cases hresult
  | ok found =>
    cases found with
    | absent =>
      -- An absent field gives no value, so there is nothing to show.
      simp only [hok, into] at hx
      cases hx
    | unchanged =>
      simp only [hok, into, Option.mem_def, Option.some.injEq] at hx
      exact hx ▸ hfield _ hok (by simp)
    | updated =>
      simp only [hok, into, Option.mem_def, Option.some.injEq] at hx
      exact hx ▸ hfield _ hok (by simp)

/-- An optional value is missing exactly if its field was absent. -/
theorem loadOptional_absent_iff {fresh : α} {fields : Json.Fields} {key : String} {old : Option α}
    {outcome : Outcome} (h : (loadOptional load fresh fields key old).result = .ok outcome) :
    outcome = .absent ↔ (loadOptional load fresh fields key old).value = none := by
  unfold loadOptional at h ⊢
  cases hok : (loadField load fields key fresh).result with
  | error error =>
    simp only [hok, into] at h
    cases h
  | ok found =>
    cases found <;> simp only [hok, into] at h ⊢ <;> cases h <;> simp

/-- Every item of a list has what its loader yields. -/
theorem ensures_loadItems {fresh : α} (h : ∀ node, (load fresh node).Yields P) (index : Nat)
    (nodes : List Json) : (loadItems load fresh index nodes).Ensures fun items => ∀ x ∈ items, P x := by
  induction nodes generalizing index with
  | nil => exact ensures_done (by simp)
  | cons node rest ih =>
    have hitem := yields_under (h node) (Nat.repr index)
    intro outcome hresult x hx
    rw [loadItems] at hresult hx
    cases hok : ((load fresh node).under (Nat.repr index)).result with
    | error error =>
      simp only [hok, into] at hresult
      cases hresult
    | ok found =>
      simp only [hok] at hresult hx
      cases hothers : (loadItems load fresh (index + 1) rest).result with
      | error error =>
        rw [hothers] at hresult
        cases hresult
      | ok after =>
        -- An absent item is left out, so `Yields` is enough for the others.
        by_cases hfound : found = .absent
        · rw [if_pos hfound] at hx
          exact ih (index + 1) after hothers x hx
        · rw [if_neg hfound] at hx
          rcases List.mem_cons.1 hx with rfl | hx
          · exact hitem found hok hfound
          · exact ih (index + 1) after hothers x hx

/-- So has every item of a list that was loaded. -/
theorem ensures_loadList {fresh : α} {old : List α} {node : Json}
    (h : ∀ node, (load fresh node).Yields P) :
    (loadList load fresh old node).Ensures fun items => ∀ x ∈ items, P x := by
  unfold loadList
  split
  · exact ensures_loadItems h 0 _
  · exact ensures_failed

/-- **Item by item**: if no item is absent, each gives a value, in order. -/
theorem ensures_loadItems_each {R : Json → α → Prop} {fresh : α}
    (hpresent : ∀ node, (load fresh node).result ≠ .ok .absent)
    (h : ∀ node, (load fresh node).Ensures (R node)) (index : Nat) (nodes : List Json) :
    (loadItems load fresh index nodes).Ensures (List.Forall₂ R nodes) := by
  induction nodes generalizing index with
  | nil => exact ensures_done .nil
  | cons node rest ih =>
    intro outcome hresult
    rw [loadItems] at hresult ⊢
    cases hok : (load fresh node).result with
    | error error =>
      simp only [under, hok, Except.mapError, into] at hresult
      cases hresult
    | ok found =>
      have hfound : found ≠ .absent := fun habsent => hpresent node (habsent ▸ hok)
      simp only [under, hok, Except.mapError, if_neg hfound] at hresult ⊢
      cases hothers : (loadItems load fresh (index + 1) rest).result with
      | error error =>
        rw [hothers] at hresult
        cases hresult
      | ok after => exact .cons (h node found hok) (ih (index + 1) after hothers)

/-- No more items are loaded than a list has. -/
theorem length_loadItems_le (fresh : α) (index : Nat) (nodes : List Json) :
    (loadItems load fresh index nodes).value.length ≤ nodes.length := by
  induction nodes generalizing index with
  | nil => exact Nat.le_refl 0
  | cons node rest ih =>
    rw [loadItems]
    cases hok : ((load fresh node).under (Nat.repr index)).result with
    | error error =>
      simp only [into]
      exact Nat.zero_le _
    | ok found =>
      have hrest := ih (index + 1)
      by_cases hfound : found = .absent
      · simp only [if_pos hfound, List.length_cons]
        omega
      · simp only [if_neg hfound, List.length_cons]
        omega

/-- A loaded list is no longer than its document. -/
theorem ensures_length_loadList {fresh : α} {old : List α} {node : Json} {limit : Nat}
    (h : ∀ items, node = .array items → items.length ≤ limit) :
    (loadList load fresh old node).Ensures fun items => items.length ≤ limit := by
  unfold loadList
  split
  · rename_i items
    exact fun _ _ => Nat.le_trans (length_loadItems_le fresh 0 items) (h items rfl)
  · exact ensures_failed

end Guarantees

namespace Translated

open Loaded

variable {α : Type} {loadOne : Loader α} {P : α → Prop}

/-- Every language of a map has the property. -/
def Forall (P : α → Prop) (m : Translated α) : Prop :=
  ∀ tag value, SortedMap.get? m tag = some value → P value

theorem forall_empty : Forall P SortedMap.empty := by
  intro tag value h
  cases h

/-- A value with the property can be put under any tag. -/
theorem forall_insert {m : Translated α} {tag : String} {value : α} (hm : Forall P m)
    (h : P value) : Forall P (SortedMap.insert m tag value) := by
  intro other found hfound
  rw [SortedMap.get?_insert] at hfound
  by_cases heq : tag = other
  · rw [if_pos heq] at hfound
    cases hfound
    exact h
  · rw [if_neg heq] at hfound
    exact hm other found hfound

theorem forall_erase {m : Translated α} {tag : String} (hm : Forall P m) :
    Forall P (SortedMap.erase m tag) := by
  intro other found hfound
  rw [SortedMap.get?_erase] at hfound
  by_cases heq : tag = other
  · rw [if_pos heq] at hfound
    cases hfound
  · rw [if_neg heq] at hfound
    exact hm other found hfound

/-- One key adds a value that its loader yields, or nothing. -/
theorem ensures_loadKey {fresh : α} (h : ∀ node, (loadOne fresh node).Yields P)
    (fields : Json.Fields) (name key : String) {m : Translated α} (hm : Forall P m) :
    (loadKey loadOne fresh fields name key m).Ensures (Forall P) := by
  have hfield := yields_loadField h fields key
  unfold loadKey
  split
  · exact ensures_done hm
  · cases hok : (loadField loadOne fields key fresh).result with
    | error error =>
      intro outcome hresult
      simp only [hok, into] at hresult
      cases hresult
    | ok found =>
      cases found with
      | absent =>
        simp only [hok]
        exact ensures_into fun _ _ => hm
      | unchanged =>
        simp only [hok]
        exact ensures_into fun _ _ => forall_insert hm (hfield _ hok (by simp))
      | updated =>
        simp only [hok]
        exact ensures_into fun _ _ => forall_insert hm (hfield _ hok (by simp))

/-- **Every language has what its loader yields.** -/
theorem ensures_load {fresh : α} (h : ∀ node, (loadOne fresh node).Yields P)
    (fields : Json.Fields) (name : String) {m : Translated α} (hm : Forall P m) :
    (load loadOne fresh fields name m).Ensures (Forall P) := by
  -- The keys are visited one after the other; each visit keeps the property.
  have hkeys : ∀ (keys : List String) (loaded : Loaded (Translated α)),
      loaded.Ensures (Forall P) →
      (keys.foldl (fun loaded key => loaded.andThen (loadKey loadOne fresh fields name key))
        loaded).Ensures (Forall P) := by
    intro keys
    induction keys with
    | nil => exact fun loaded hloaded => hloaded
    | cons key rest ih =>
      intro loaded hloaded
      exact ih _ (ensures_andThen hloaded fun value hvalue =>
        ensures_loadKey h fields name key hvalue)
  exact hkeys _ _ (ensures_done hm)

end Translated

/-! ## §3. Quiet loads. -/

namespace Loaded

variable {α β : Type}

/-- The load succeeds with a value, without a note and without an update. -/
def Quiet (loaded : Loaded α) (value : α) : Prop :=
  ∃ outcome, outcome ≠ .updated ∧ loaded = done value outcome

theorem quiet_absent (value : α) : (done value .absent).Quiet value := ⟨_, by simp, rfl⟩

theorem quiet_unchanged (value : α) : (done value .unchanged).Quiet value := ⟨_, by simp, rfl⟩

/-- Two loads without a note, one after the other. -/
theorem andThen_done {first : Loaded α} {next : α → Loaded α} {a b : α} {before after : Outcome}
    (hfirst : first = done a before) (hnext : next a = done b after) :
    first.andThen next = done b (before.absorb after) := by
  rw [hfirst]
  show Loaded.mk (next a).value ([] ++ (next a).notes) ((next a).result.map before.absorb) = _
  rw [hnext]
  rfl

/-- A load without a note has none after its value is put into a place. -/
theorem into_done {loaded : Loaded α} {a : α} {outcome : Outcome} (h : loaded = done a outcome)
    (place : α → β) : loaded.into place = done (place a) outcome := by
  rw [h]
  rfl

/-- Two quiet steps are a quiet step. -/
theorem Quiet.andThen {first : Loaded α} {next : α → Loaded α} {a b : α} (hfirst : first.Quiet a)
    (hnext : (next a).Quiet b) : (first.andThen next).Quiet b := by
  obtain ⟨before, hbefore, hdone⟩ := hfirst
  obtain ⟨after, hafter, hsecond⟩ := hnext
  refine ⟨before.absorb after, ?_, andThen_done hdone hsecond⟩
  cases before <;> cases after <;> simp_all [Outcome.absorb]

/-- A load that starts with something unchanged ends so if the rest is
quiet. -/
theorem andThen_quiet {first : Loaded α} {next : α → Loaded α} {a b : α}
    (hfirst : first = done a .unchanged) (hnext : (next a).Quiet b) :
    first.andThen next = done b .unchanged := by
  obtain ⟨after, hafter, hsecond⟩ := hnext
  rw [andThen_done hfirst hsecond]
  cases after with
  | absent => rfl
  | unchanged => rfl
  | updated => exact absurd rfl hafter

/-- A quiet load is quiet after its value is put into a place. -/
theorem Quiet.into {loaded : Loaded α} {value : α} (h : loaded.Quiet value) (place : α → β) :
    (loaded.into place).Quiet (place value) := by
  obtain ⟨outcome, houtcome, rfl⟩ := h
  exact ⟨outcome, houtcome, rfl⟩

theorem under_done (value : α) (outcome : Outcome) (key : String) :
    (done value outcome).under key = done value outcome := rfl

/-- A quiet field is quiet under its key. -/
theorem Quiet.under {loaded : Loaded α} {value : α} (h : loaded.Quiet value) (key : String) :
    (loaded.under key).Quiet value := by
  obtain ⟨outcome, houtcome, rfl⟩ := h
  exact ⟨outcome, houtcome, rfl⟩

/-- Without its outcome a quiet load is quiet still. -/
theorem Quiet.withoutOutcome {loaded : Loaded α} {value : α} (h : loaded.Quiet value) :
    loaded.withoutOutcome.Quiet value := by
  obtain ⟨outcome, _, rfl⟩ := h
  exact quiet_absent value

end Loaded

end FilmCatalog
