/-
  FilmCatalog.Proofs.Reporting
  ────────────────────────────
  **WHAT A LOAD TELLS OF ITSELF.**

  Beside its value a load leaves an outcome and notes, or an error with the
  keys that lead to its cause.  Both can be relied on (`Candid`):

      ok outcome     the outcome is `updated` exactly if there is a note
      error e        `P e`

  For almost every loader `P e` says that the keys of `e` lead from the node to
  a part of it, of the kind that the error reports as found (`Points`); such a
  loader is said to tell (`Tells`).  Fields, optional fields, lists and
  languages of loaders that tell do so too: each of them goes one step into the
  node and puts the key of that step in front of the error.
-/
import FilmCatalog.Proofs.Loading
import FilmCatalog.Proofs.Text

namespace FilmCatalog

/-! ## §1. Ways into a document. -/

namespace Json

/-- The part of a node under a key: a field of an object, or an item of a list
by its index. -/
def child? : Json → String → Option Json
  | .object fields, key => Fields.get? fields key
  | .array items, key => (items.zipIdx.find? fun item => Nat.repr item.2 = key).map Prod.fst
  | _, _ => none

/-- The node that some keys lead to, one after the other. -/
def follow? : Json → List String → Option Json
  | node, [] => some node
  | node, key :: keys => (node.child? key).bind fun child => child.follow? keys

/-- The items of a list are found by their positions. -/
theorem child?_array {items : List Json} {index : Nat} {item : Json}
    (h : items[index]? = some item) : (Json.array items).child? (Nat.repr index) = some item := by
  have hmem : (item, index) ∈ items.zipIdx := List.mem_zipIdx_iff_getElem?.2 h
  cases hfind : items.zipIdx.find? fun item => Nat.repr item.2 = Nat.repr index with
  | none => exact absurd (decide_eq_true rfl) (List.find?_eq_none.1 hfind (item, index) hmem)
  | some found =>
    -- An index is told by its digits, so no other item is found.
    have hnamed := List.find?_some hfind
    have hindex : found.2 = index := Text.repr_injective (of_decide_eq_true hnamed)
    have hfound := List.mem_zipIdx_iff_getElem?.1 (List.mem_of_find?_eq_some hfind)
    rw [hindex, h] at hfound
    show (items.zipIdx.find? fun item => Nat.repr item.2 = Nat.repr index).map Prod.fst = some item
    rw [hfind, Option.map_some, ← Option.some.inj hfound]

/-- The first key of a way leads to a child, and the others lead on from there. -/
theorem follow?_cons {node child : Json} {key : String} (h : node.child? key = some child)
    (keys : List String) : node.follow? (key :: keys) = child.follow? keys := by
  rw [follow?, h, Option.bind_some]

end Json

/-! ## §2. Errors that point. -/

namespace LoadError

/-- **The error points at its cause**: its keys lead to a part of the node, and
a wrong kind is the kind of that part. -/
def Points (error : LoadError) (node : Json) : Prop :=
  ∃ target, node.follow? error.keys = some target ∧
    ∀ expected found, error.root = .shape expected found → target.kind = found

/-- What was not expected is the node itself. -/
theorem points_unexpected (expected : String) (node : Json) :
    (unexpected expected node).Points node := by
  refine ⟨node, rfl, fun _ _ h => ?_⟩
  cases h
  rfl

/-- A name that is not known is the node itself. -/
theorem points_unknownName (kind name : String) (node : Json) :
    (unknownName kind name).Points node := by
  refine ⟨node, rfl, fun _ _ h => ?_⟩
  cases h

/-- A dangling role is told of the node as a whole. -/
theorem points_danglingRole (list : String) (index : Int) (known : Nat) (node : Json) :
    (danglingRole list index known).Points node := by
  refine ⟨node, rfl, fun _ _ h => ?_⟩
  cases h

/-- What points into a part points into the whole, with the key of the part. -/
theorem Points.field {error : LoadError} {node child : Json} {key : String}
    (h : error.Points child) (hchild : node.child? key = some child) :
    (LoadError.field key error).Points node := by
  obtain ⟨target, hfollow, hkind⟩ := h
  exact ⟨target, (Json.follow?_cons hchild error.keys).trans hfollow, hkind⟩

end LoadError

/-! ## §3. Candid loads. -/

/-- An update sticks, and comes from one of the steps. -/
theorem Outcome.absorb_eq_updated_iff (before after : Outcome) :
    before.absorb after = .updated ↔ before = .updated ∨ after = .updated := by
  cases before <;> cases after <;> simp [absorb]

namespace Loaded

variable {α β : Type} {P Q : LoadError → Prop}

/-- A load that succeeds reports an update exactly if it left a note, and the
error of one that fails is as `P` says. -/
structure Candid (loaded : Loaded α) (P : LoadError → Prop) : Prop where
  noted : ∀ outcome, loaded.result = .ok outcome → (outcome = .updated ↔ loaded.notes ≠ [])
  refused : ∀ error, loaded.result = .error error → P error

/-- A load that succeeds is candid if it notes what it updates. -/
theorem candid_of_ok {loaded : Loaded α} {outcome : Outcome} (h : loaded.result = .ok outcome)
    (hnoted : outcome = .updated ↔ loaded.notes ≠ []) : loaded.Candid P := by
  constructor
  · intro other hother
    rw [h] at hother
    cases hother
    exact hnoted
  · intro error herror
    rw [h] at herror
    cases herror

/-- A load that fails is candid if its error is one that may come. -/
theorem candid_of_error {loaded : Loaded α} {error : LoadError}
    (h : loaded.result = .error error) (herror : P error) : loaded.Candid P := by
  constructor
  · intro outcome houtcome
    rw [h] at houtcome
    cases houtcome
  · intro other hother
    rw [h] at hother
    cases hother
    exact herror

theorem candid_done (value : α) {outcome : Outcome} (h : outcome ≠ .updated) :
    (done value outcome).Candid P :=
  candid_of_ok rfl (iff_of_false h fun hnotes => hnotes rfl)

/-- A repair is an update with a note. -/
theorem candid_repaired (value : α) (note : String) : (repaired value note).Candid P :=
  candid_of_ok rfl (iff_of_true rfl (List.cons_ne_nil note []))

theorem candid_failed (value : α) {error : LoadError} (h : P error) :
    (failed value error).Candid P :=
  candid_of_error rfl h

/-- A candid load is one for all errors that include its own. -/
theorem Candid.imp {loaded : Loaded α} (h : loaded.Candid P) (hPQ : ∀ error, P error → Q error) :
    loaded.Candid Q :=
  ⟨h.noted, fun error herror => hPQ error (h.refused error herror)⟩

/-- Where the value goes is no concern of the report. -/
theorem Candid.into {loaded : Loaded α} (h : loaded.Candid P) (place : α → β) :
    (loaded.into place).Candid P := ⟨h.noted, h.refused⟩

/-- **Sequencing**: an update of either step is an update of both, and so is a
note. -/
theorem Candid.andThen {first : Loaded α} {next : α → Loaded α} (hfirst : first.Candid P)
    (hnext : ∀ value, (next value).Candid P) : (first.andThen next).Candid P := by
  unfold Loaded.andThen
  cases hbefore : first.result with
  | error error =>
    simp only
    exact hfirst
  | ok before =>
    simp only
    have hsecond := hnext first.value
    cases hafter : (next first.value).result with
    | error error => exact candid_of_error rfl (hsecond.refused error hafter)
    | ok after =>
      refine candid_of_ok rfl ?_
      show _ ↔ first.notes ++ (next first.value).notes ≠ []
      rw [Outcome.absorb_eq_updated_iff, hfirst.noted before hbefore, hsecond.noted after hafter]
      exact Decidable.not_and_iff_or_not.symm.trans (not_congr List.append_eq_nil_iff).symm

/-- The key of a part comes in front of the error. -/
theorem candid_under {loaded : Loaded α} {key : String}
    (h : loaded.Candid fun error => P (.field key error)) : (loaded.under key).Candid P := by
  unfold under
  cases hresult : loaded.result with
  | error error => exact candid_of_error rfl (h.refused error hresult)
  | ok outcome => exact candid_of_ok rfl (h.noted outcome hresult)

/-- A load without notes may keep its outcome to itself. -/
theorem Candid.withoutOutcome {loaded : Loaded α} (h : loaded.Candid P)
    (hnotes : loaded.notes = []) : loaded.withoutOutcome.Candid P := by
  unfold Loaded.withoutOutcome
  cases hresult : loaded.result with
  | error error => exact candid_of_error rfl (h.refused error hresult)
  | ok outcome =>
    -- What is left of the outcome is `absent`.
    exact candid_of_ok rfl (iff_of_false Outcome.noConfusion fun hne => hne hnotes)

end Loaded

/-! ## §4. Fields, lists and languages. -/

section Parts

open Loaded

variable {α : Type} {load : Loader α} {P : LoadError → Prop}

/-- A value that cannot be read is an error at the node. -/
theorem candid_loadScalar {expected : String} {read : Json → Option α} {old : α} {node : Json}
    (h : P (.unexpected expected node)) : (loadScalar expected read old node).Candid P := by
  unfold loadScalar
  split
  · exact candid_done _ Outcome.noConfusion
  · exact candid_failed old h

/-- A node that is no object is an error at the node. -/
theorem candid_withFields {old : α} {node : Json} {loadFields : Json.Fields → Loaded α}
    (hnode : P (.unexpected "object" node))
    (h : ∀ fields, node = .object fields → (loadFields fields).Candid P) :
    (withFields old node loadFields).Candid P := by
  unfold withFields
  split
  · exact h _ rfl
  · exact candid_failed old hnode

/-- The error of a field has the key of the field in front. -/
theorem candid_loadField {fields : Json.Fields} {key : String} {old : α}
    (h : ∀ node, fields.get? key = some node →
      (load old node).Candid fun error => P (.field key error)) :
    (loadField load fields key old).Candid P := by
  unfold loadField
  split
  · exact candid_done old Outcome.noConfusion
  · exact candid_done old Outcome.noConfusion
  · rename_i node _ hnode
    exact candid_under (h node hnode)

/-- So has the error of an optional field. -/
theorem candid_loadOptional {fresh : α} {fields : Json.Fields} {key : String} {old : Option α}
    (h : ∀ node, fields.get? key = some node →
      (load fresh node).Candid fun error => P (.field key error)) :
    (loadOptional load fresh fields key old).Candid P := by
  have hfield : (loadField load fields key fresh).Candid P := candid_loadField h
  simp only [loadOptional]
  split <;> exact hfield.into _

/-- Item by item; the rest of a list counts on from the index of its first item. -/
theorem candid_loadItems {fresh : α} (nodes : List Json) {start : Nat}
    (h : ∀ index node, nodes[index]? = some node →
      (load fresh node).Candid fun error => P (.field (Nat.repr (start + index)) error)) :
    (loadItems load fresh start nodes).Candid P := by
  induction nodes generalizing start with
  | nil => exact candid_done [] Outcome.noConfusion
  | cons node rest ih =>
    have hitem : ((load fresh node).under (Nat.repr start)).Candid P := candid_under (h 0 node rfl)
    have hothers : (loadItems load fresh (start + 1) rest).Candid P := by
      refine ih fun index other hother => ?_
      have hnext := h (index + 1) other hother
      rwa [Nat.add_comm index 1, ← Nat.add_assoc] at hnext
    -- But for the value, an item and the others are two steps one after the other.
    have hboth := (hitem.into fun _ => ()).andThen fun _ => hothers.into fun _ => ()
    rw [loadItems]
    cases hok : ((load fresh node).under (Nat.repr start)).result with
    | error error => exact hitem.into fun _ => []
    | ok outcome =>
      simp only [Loaded.andThen, Loaded.into, hok] at hboth
      exact ⟨hboth.noted, hboth.refused⟩

/-- The error of an item has the position of the item in front. -/
theorem candid_loadList {fresh : α} {old : List α} {node : Json}
    (hnode : P (.unexpected "array" node))
    (h : ∀ items, node = .array items → ∀ index item, items[index]? = some item →
      (load fresh item).Candid fun error => P (.field (Nat.repr index) error)) :
    (loadList load fresh old node).Candid P := by
  unfold loadList
  split
  · rename_i items
    refine candid_loadItems items fun index item hitem => ?_
    rw [Nat.zero_add]
    exact h items rfl index item hitem
  · exact candid_failed old hnode

/-- The error of a language has the key of the language in front. -/
theorem Translated.candid_load {fresh : α} {fields : Json.Fields} {name : String} {m : Translated α}
    (h : ∀ key node, fields.get? key = some node →
      (load fresh node).Candid fun error => P (.field key error)) :
    (Translated.load load fresh fields name m).Candid P := by
  have hkey : ∀ key m, (loadKey load fresh fields name key m).Candid P := by
    intro key m
    have hfield : (loadField load fields key fresh).Candid P := candid_loadField (h key)
    unfold loadKey
    split
    · exact candid_done m Outcome.noConfusion
    · simp only
      split <;> exact hfield.into _
  have hkeys : ∀ (keys : List String) (loaded : Loaded (Translated α)), loaded.Candid P →
      (keys.foldl (fun loaded key => loaded.andThen (loadKey load fresh fields name key))
        loaded).Candid P := by
    intro keys
    induction keys with
    | nil => exact fun loaded hloaded => hloaded
    | cons key rest ih => exact fun loaded hloaded => ih _ (hloaded.andThen (hkey key))
  exact hkeys _ _ (candid_done m Outcome.noConfusion)

end Parts

/-! ## §5. Loaders that tell. -/

/-- Whatever it loads, the loader tells where it fails, and notes its updates. -/
def Tells {α : Type} (load : Loader α) : Prop :=
  ∀ old node, (load old node).Candid fun error => error.Points node

section Telling

open Loaded LoadError

variable {α : Type} {load : Loader α}

/-- Scalars tell: their only error is about the node itself. -/
theorem tells_loadScalar (expected : String) (read : Json → Option α) :
    Tells (loadScalar expected read) :=
  fun _ node => candid_loadScalar (points_unexpected expected node)

/-- A loader of an object tells if the loads of its fields do. -/
theorem tells_withFields {loadFields : α → Json.Fields → Loaded α}
    (h : ∀ old fields, (loadFields old fields).Candid fun error => error.Points (.object fields)) :
    Tells fun old node => withFields old node (loadFields old) := by
  intro old node
  refine candid_withFields (points_unexpected "object" node) ?_
  rintro fields rfl
  exact h old fields

/-- The error of a field leads to the field and on from there. -/
theorem Tells.field (h : Tells load) (fields : Json.Fields) (key : String) (old : α) :
    (loadField load fields key old).Candid fun error => error.Points (.object fields) :=
  candid_loadField fun node hnode => (h old node).imp fun _ herror => herror.field hnode

/-- So does the error of an optional field. -/
theorem Tells.optional (h : Tells load) (fresh : α) (fields : Json.Fields) (key : String)
    (old : Option α) :
    (loadOptional load fresh fields key old).Candid fun error => error.Points (.object fields) :=
  candid_loadOptional fun node hnode => (h fresh node).imp fun _ herror => herror.field hnode

/-- If each item tells, the list does. -/
theorem Tells.list (h : Tells load) (fresh : α) : Tells (loadList load fresh) := by
  intro old node
  refine candid_loadList (points_unexpected "array" node) ?_
  rintro items rfl index item hitem
  exact (h fresh item).imp fun _ herror => herror.field (Json.child?_array hitem)

/-- If each value tells, all languages do. -/
theorem Tells.languages (h : Tells load) (fresh : α) (fields : Json.Fields) (name : String)
    (m : Translated α) :
    (Translated.load load fresh fields name m).Candid fun error => error.Points (.object fields) :=
  Translated.candid_load fun _ node hnode => (h fresh node).imp fun _ herror => herror.field hnode

theorem tells_loadText : Tells loadText := tells_loadScalar _ _

theorem tells_loadUInt32 : Tells loadUInt32 := tells_loadScalar _ _

theorem tells_loadTexts : Tells loadTexts := tells_loadText.list ""

end Telling

end FilmCatalog
