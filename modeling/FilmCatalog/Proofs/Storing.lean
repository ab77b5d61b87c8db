/-
  FilmCatalog.Proofs.Storing
  ──────────────────────────
  **WHAT IS STORED IS LOADED AGAIN.**

  A value is stored field by field, and fields with nothing to say are left
  out.  Loading such an object meets each field as it was stored or not at
  all, so a load is quiet if it is quiet on every field:

      Rereads load old node y    a stored `node` gives `y` again, where `old`
                                 stands for nothing

  The property of a key is what stands before its first colon.  Keys of one
  property never belong to another, so each part of an object can be looked up
  among its own fields.
-/
import FilmCatalog.Proofs.Loading
import FilmCatalog.Proofs.Text

namespace FilmCatalog

open Loaded

/-! ## §1. Stored objects. -/

/-- The fields of the object that some parts are stored as. -/
def storedObject (parts : List (String × Json)) : Json.Fields :=
  (storedFields parts).foldl (fun all field => Json.Fields.put all field.1 field.2) []

/-- A stored object holds its parts, except those that store nothing. -/
theorem get?_storedObject {parts : List (String × Json)} (hkeys : (parts.map (·.1)).Nodup)
    (key : String) :
    Json.Fields.get? (storedObject parts) key
      = (Entries.get? key parts).filter fun node => !node.isNull := by
  have hfilter : ((storedFields parts).map (·.1)).Nodup :=
    (List.filter_sublist.map _).nodup hkeys
  unfold storedObject Json.Fields.get? Json.Fields.put
  rw [Entries.get?_foldl_insertEntry, Entries.get?_reverse hfilter, Entries.get?_nil, Option.or_none]
  exact Entries.get?_filter (fun _ node => !node.isNull) key hkeys

/-- Parts are stored as an object, or as nothing if none of them stores
anything. -/
theorem storeFields_eq (parts : List (String × Json)) :
    storeFields parts = .null ∧ storedObject parts = [] ∨
      storeFields parts = .object (storedObject parts) := by
  unfold storeFields
  by_cases h : (storedFields parts).isEmpty = true
  · refine .inl ⟨if_pos h, ?_⟩
    unfold storedObject
    rw [List.isEmpty_iff.1 h]
    rfl
  · exact .inr (if_neg h)

/-! ## §2. Values that are loaded again. -/

section Rereads

variable {α β : Type} {load : Loader α}

/-- A stored node gives `y` again; where nothing is stored, `y` is what was
held before. -/
def Rereads (load : Loader α) (old : α) (node : Json) (y : α) : Prop :=
  (node.isNull = true → y = old) ∧ (node.isNull = false → (load old node).Quiet y)

/-- Where nothing is stored, the old value stays. -/
theorem rereads_nothing (load : Loader α) (old : α) : Rereads load old .null old :=
  ⟨fun _ => rfl, nofun⟩

/-- What is stored and loaded in silence is loaded again. -/
theorem rereads_present {old y : α} {node : Json} (hnull : node.isNull = false)
    (h : (load old node).Quiet y) : Rereads load old node y := by
  refine ⟨fun hother => ?_, fun _ => h⟩
  rw [hnull] at hother
  cases hother

/-- A scalar is loaded if it can be read. -/
theorem loadScalar_of_read {expected : String} {read : Json → Option α} {node : Json} {value : α}
    (h : read node = some value) (old : α) :
    loadScalar expected read old node = done value .unchanged := by
  unfold loadScalar
  rw [h]

/-- A quiet load has one value. -/
theorem Quiet.unique {loaded : Loaded α} {a b : α} (ha : loaded.Quiet a) (hb : loaded.Quiet b) :
    a = b := by
  obtain ⟨_, _, ha⟩ := ha
  obtain ⟨_, _, hb⟩ := hb
  exact congrArg Loaded.value (ha.symm.trans hb)

/-- A field that is there and not null is loaded. -/
theorem loadField_of_get? {fields : Json.Fields} {key : String} {node : Json}
    (hget : fields.get? key = some node) (hnull : node.isNull = false) (old : α) :
    loadField load fields key old = (load old node).under key := by
  unfold loadField
  rw [hget]
  cases node with
  | null => cases hnull
  | _ => rfl

/-- The load of a field, by what was stored in it. -/
theorem loadField_storedObject {parts : List (String × Json)} (hkeys : (parts.map (·.1)).Nodup)
    {key : String} {node : Json} (hget : Entries.get? key parts = some node) (old : α) :
    loadField load (storedObject parts) key old
      = if node.isNull then done old .absent else (load old node).under key := by
  unfold loadField
  rw [get?_storedObject hkeys, hget]
  cases node <;> rfl

/-- A field of a stored object is loaded as its part is. -/
theorem quiet_loadField {parts : List (String × Json)} (hkeys : (parts.map (·.1)).Nodup)
    {key : String} {node : Json} (hget : Entries.get? key parts = some node) {old y : α}
    (h : Rereads load old node y) : (loadField load (storedObject parts) key old).Quiet y := by
  rw [loadField_storedObject hkeys hget]
  by_cases hnull : node.isNull = true
  · rw [if_pos hnull, h.1 hnull]
    exact quiet_absent old
  · rw [if_neg hnull]
    exact (h.2 (Bool.eq_false_iff.2 hnull)).under key

/-- An object is loaded again if its fields are, and nothing is left of a
value without any. -/
theorem rereads_storeFields {parts : List (String × Json)} {loadFields : Json.Fields → Loaded α}
    {old y : α} (hempty : (loadFields []).Quiet old)
    (h : (loadFields (storedObject parts)).Quiet y) :
    Rereads (fun old node => withFields old node loadFields) old (storeFields parts) y := by
  rcases storeFields_eq parts with ⟨hstore, hobject⟩ | hstore
  · -- Nothing is stored, so `y` is what an object without fields gives.
    rw [hobject] at h
    rw [hstore, Quiet.unique h hempty]
    exact rereads_nothing _ old
  · rw [hstore]
    exact rereads_present rfl h

/-! ## §3. Lists and optional values. -/

/-- Items that are loaded again one by one are loaded again as a list. -/
theorem loadItems_map {fresh : α} {store : β → Json} {again : β → α} {items : List β}
    (h : ∀ item ∈ items, load fresh (store item) = done (again item) .unchanged) (index : Nat) :
    loadItems load fresh index (items.map store) = done (items.map again) .unchanged := by
  induction items generalizing index with
  | nil => rfl
  | cons item rest ih =>
    obtain ⟨hitem, hrest⟩ := List.forall_mem_cons.1 h
    rw [List.map_cons, loadItems]
    simp only [hitem, ih hrest (index + 1)]
    rfl

/-- So is the stored list, and an empty one is not stored at all. -/
theorem rereads_storeList {fresh : α} {store : β → Json} {again : β → α} {items : List β}
    (h : ∀ item ∈ items, load fresh (store item) = done (again item) .unchanged) :
    Rereads (loadList load fresh) [] (storeList store items) (items.map again) := by
  unfold storeList
  cases items with
  | nil => exact rereads_nothing _ []
  | cons item rest =>
    refine rereads_present rfl ?_
    show (loadItems load fresh 0 ((item :: rest).map store)).Quiet _
    rw [loadItems_map h]
    exact quiet_unchanged _

theorem rereads_storeList_self {fresh : α} {store : α → Json} {items : List α}
    (h : ∀ item ∈ items, load fresh (store item) = done item .unchanged) :
    Rereads (loadList load fresh) [] (storeList store items) items := by
  have hlist : Rereads (loadList load fresh) [] (storeList store items) (items.map id) :=
    rereads_storeList h
  rwa [List.map_id] at hlist

/-- What is said of an optional value: whether it was there. -/
def presence (found : Bool) : Outcome := if found then .unchanged else .absent

theorem presence_ne_updated (found : Bool) : presence found ≠ .updated := by
  cases found <;> simp [presence]

/-- An optional value of a stored object is loaded again, and its outcome tells
whether it was there. -/
theorem loadOptional_storedObject {parts : List (String × Json)}
    (hkeys : (parts.map (·.1)).Nodup) {key : String} {store : β → Json} {value : Option β}
    (hget : Entries.get? key parts = some (storeOptional store value)) {fresh : α} {again : β → α}
    (h : ∀ x ∈ value, (store x).isNull = false ∧ load fresh (store x) = done (again x) .unchanged)
    (old : Option α) :
    loadOptional load fresh (storedObject parts) key old
      = done (value.map again) (presence value.isSome) := by
  unfold loadOptional
  rw [loadField_storedObject hkeys hget]
  cases value with
  | none => rfl
  | some x =>
    obtain ⟨hnull, hload⟩ := h x rfl
    simp only [storeOptional, hnull, hload]
    rfl

/-- An optional value of a stored object is loaded in silence. -/
theorem quiet_loadOptional {parts : List (String × Json)} (hkeys : (parts.map (·.1)).Nodup)
    {key : String} {store : β → Json} {value : Option β}
    (hget : Entries.get? key parts = some (storeOptional store value)) {fresh : α} {again : β → α}
    (h : ∀ x ∈ value, (store x).isNull = false ∧ load fresh (store x) = done (again x) .unchanged)
    (old : Option α) :
    (loadOptional load fresh (storedObject parts) key old).Quiet (value.map again) := by
  rw [loadOptional_storedObject hkeys hget h]
  exact ⟨_, presence_ne_updated _, rfl⟩

theorem quiet_loadOptional_self {parts : List (String × Json)} (hkeys : (parts.map (·.1)).Nodup)
    {key : String} {store : α → Json} {value : Option α}
    (hget : Entries.get? key parts = some (storeOptional store value)) {fresh : α}
    (h : ∀ x ∈ value, (store x).isNull = false ∧ load fresh (store x) = done x .unchanged)
    (old : Option α) : (loadOptional load fresh (storedObject parts) key old).Quiet value := by
  have hoptional : (loadOptional load fresh (storedObject parts) key old).Quiet (value.map id) :=
    quiet_loadOptional hkeys hget h old
  rwa [Option.map_id] at hoptional

end Rereads

/-! ## §4. Properties of keys. -/

namespace Translated

/-- What stands before the first colon of a key. -/
def property (key : String) : String :=
  match Text.cutFirst ':' key with
  | some (before, _) => before
  | none => key

/-- A name of a property holds no colon. -/
def Plain (name : String) : Prop := ':' ∉ name.toList

instance (name : String) : Decidable (Plain name) := inferInstanceAs (Decidable (¬ _))

theorem property_of_plain {name : String} (h : Plain name) : property name = name := by
  unfold property
  rw [Text.cutFirst_eq_none h]

/-- The key for a language belongs to the property that it was made from. -/
theorem property_keyFor {name : String} (h : Plain name) (tag : String) :
    property (keyFor name tag) = name := by
  unfold keyFor
  by_cases htag : tag = defaultTag
  · rw [if_pos htag, property_of_plain h]
  · rw [if_neg htag]
    unfold property
    rw [Text.cutFirst_colon h]

/-- The key for a language tells the language. -/
theorem tagOf?_keyFor (name tag : String) : tagOf? name (keyFor name tag) = some tag := by
  unfold tagOf? keyFor
  by_cases htag : tag = defaultTag
  · have hdrop : Text.dropStart? name.toList name.toList = some [] :=
      Text.dropStart?_eq_some_iff.2 (List.append_nil _).symm
    rw [if_pos htag, hdrop, htag]
  · have hdrop : Text.dropStart? name.toList (name ++ ":" ++ tag).toList
        = some (':' :: tag.toList) := by
      refine Text.dropStart?_eq_some_iff.2 ?_
      rw [String.toList_append, String.toList_append, List.append_assoc]
      rfl
    rw [if_neg htag, hdrop]
    simp only [String.ofList_toList]

/-- A key that belongs to a property has it before its first colon. -/
theorem property_of_tagOf? {name key tag : String} (hname : Plain name)
    (h : tagOf? name key = some tag) : property key = name := by
  unfold tagOf? at h
  split at h
  · rename_i hdrop
    rw [Text.dropStart?_eq_some_iff, List.append_nil] at hdrop
    rw [String.toList_inj.1 hdrop, property_of_plain hname]
  · rename_i rest hdrop
    rw [Text.dropStart?_eq_some_iff] at hdrop
    have hkey : key = name ++ ":" ++ String.ofList rest := by
      refine String.toList_inj.1 ?_
      simp [hdrop]
    unfold property
    rw [hkey, Text.cutFirst_colon hname]
  · cases h

/-! ## §5. Groups of fields. -/

/-- The fields belong to a property, and have keys of their own. -/
structure Belongs (name : String) (fields : List (String × Json)) : Prop where
  property : ∀ field ∈ fields, property field.1 = name
  keys : (fields.map (·.1)).Nodup

/-- A field under a plain name belongs to that name. -/
theorem belongs_single {name : String} (h : Plain name) (node : Json) :
    Belongs name [(name, node)] where
  property := List.forall_mem_singleton.2 (property_of_plain h)
  keys := List.pairwise_singleton _ _

/-- Fields of some properties, each with the fields that belong to it. -/
structure Grouped (groups : List (String × List (String × Json))) : Prop where
  names : (groups.map (·.1)).Nodup
  belong : ∀ group ∈ groups, Belongs group.1 group.2

/-- All fields, property by property. -/
def ungrouped (groups : List (String × List (String × Json))) : List (String × Json) :=
  groups.flatMap (·.2)

section Groups

variable {groups : List (String × List (String × Json))}

theorem Grouped.tail {group : String × List (String × Json)} (h : Grouped (group :: groups)) :
    Grouped groups where
  names := (List.nodup_cons.1 h.names).2
  belong := (List.forall_mem_cons.1 h.belong).2

/-- Fields of different properties never meet. -/
theorem Grouped.nodup_keys (h : Grouped groups) : ((ungrouped groups).map (·.1)).Nodup := by
  induction groups with
  | nil => exact .nil
  | cons group rest ih =>
    unfold ungrouped
    rw [List.flatMap_cons, List.map_append]
    refine List.nodup_append.2 ⟨(h.belong group List.mem_cons_self).keys, ih h.tail, ?_⟩
    -- A key in two groups would have two properties.
    intro key hkey other hother heq
    obtain ⟨field, hfield, rfl⟩ := List.mem_map.1 hkey
    obtain ⟨otherField, hotherField, rfl⟩ := List.mem_map.1 hother
    obtain ⟨otherGroup, hgroup, hin⟩ := List.mem_flatMap.1 hotherField
    have hleft := (h.belong group List.mem_cons_self).property field hfield
    have hright := (h.tail.belong otherGroup hgroup).property otherField hin
    have hsame : otherGroup.1 = group.1 := by rw [← hleft, heq, hright]
    exact (List.nodup_cons.1 h.names).1 (List.mem_map.2 ⟨otherGroup, hgroup, hsame⟩)

/-- A key is looked up among the fields of its property. -/
theorem Grouped.get? (h : Grouped groups) (key : String) :
    Entries.get? key (ungrouped groups)
      = (Entries.get? (Translated.property key) groups).bind (Entries.get? key) := by
  induction groups with
  | nil => rfl
  | cons group rest ih =>
    unfold ungrouped at ih ⊢
    rw [List.flatMap_cons, Entries.get?_append, ih h.tail, Entries.get?_cons]
    by_cases hname : group.1 = Translated.property key
    · rw [if_pos hname]
      -- No further group has this name, so the head decides.
      have hother : Entries.get? (Translated.property key) rest = none := by
        refine Entries.get?_eq_none_iff.2 fun other hmem heq => ?_
        refine (List.nodup_cons.1 h.names).1 (List.mem_map.2 ⟨other, hmem, ?_⟩)
        exact heq.trans hname.symm
      rw [hother, Option.bind_none, Option.or_none, Option.bind_some]
    · rw [if_neg hname]
      have hnone : Entries.get? key group.2 = none := by
        refine Entries.get?_eq_none_iff.2 fun field hfield heq => hname ?_
        rw [← heq, (h.belong group List.mem_cons_self).property field hfield]
      rw [hnone, Option.none_or]

end Groups

/-! ## §6. Languages. -/

section Languages

variable {α β : Type} {store : β → Json} {name : String} {m : Translated β}

/-- The stored fields are the values of the map under the keys for their
languages. -/
theorem mem_stored {field : String × Json} :
    field ∈ stored store name m ↔
      ∃ tag value, SortedMap.get? m tag = some value ∧ field = (keyFor name tag, store value) := by
  unfold stored
  constructor
  · intro h
    obtain ⟨entry, hentry, rfl⟩ := List.mem_map.1 h
    exact ⟨entry.1, entry.2, SortedMap.get?_of_mem_entries hentry, rfl⟩
  · rintro ⟨tag, value, hvalue, rfl⟩
    exact List.mem_map.2 ⟨(tag, value), SortedMap.mem_entries_iff.2 hvalue, rfl⟩

/-- Different languages have different keys. -/
theorem nodup_stored (store : β → Json) (name : String) (m : Translated β) :
    ((stored store name m).map (·.1)).Nodup := by
  unfold stored
  rw [List.map_map]
  refine List.pairwise_map.2 (m.ascending.imp ?_)
  intro a b hab hkeys
  -- The tag is read off the key.
  have htags : some a.1 = some b.1 := by
    rw [← tagOf?_keyFor name a.1, ← tagOf?_keyFor name b.1]
    exact congrArg (tagOf? name) hkeys
  exact String.lt_irrefl _ (Option.some.inj htags ▸ hab)

/-- The fields of all languages belong to one property. -/
theorem belongs_stored (hname : Plain name) (store : β → Json) (m : Translated β) :
    Belongs name (stored store name m) where
  property := by
    intro field hfield
    obtain ⟨tag, value, _, rfl⟩ := mem_stored.1 hfield
    exact property_keyFor hname tag
  keys := nodup_stored store name m

variable {loadOne : Loader α} {fresh : α} {again : β → α} {fields : Json.Fields}

/-- The fields of an object that belong to a property are those of a map, and
each of them is loaded again. -/
structure Holds (loadOne : Loader α) (fresh : α) (again : β → α) (store : β → Json) (name : String)
    (m : Translated β) (fields : Json.Fields) : Prop where
  belongs : ∀ key node tag, fields.get? key = some node → tagOf? name key = some tag →
    ∃ value, SortedMap.get? m tag = some value ∧ node = store value
  present : ∀ tag value, SortedMap.get? m tag = some value →
    fields.get? (keyFor name tag) = some (store value)
  rereads : ∀ tag value, SortedMap.get? m tag = some value →
    (store value).isNull = false ∧ loadOne fresh (store value) = done (again value) .unchanged

/-- What was found so far is part of what is to be found. -/
def Part (again : β → α) (m : Translated β) (found : Translated α) : Prop :=
  ∀ tag x, SortedMap.get? found tag = some x → (SortedMap.get? m tag).map again = some x

/-- What was found later holds all languages that were found before. -/
def Grows (found later : Translated α) : Prop :=
  ∀ tag, SortedMap.get? found tag ≠ none → SortedMap.get? later tag ≠ none

/-- One key: nothing happens, or a language is loaded again. -/
theorem Holds.step (h : Holds loadOne fresh again store name m fields) {key : String} {node : Json}
    (hkey : fields.get? key = some node) {found : Translated α} (hfound : Part again m found) :
    ∃ next, (loadKey loadOne fresh fields name key found).Quiet next ∧ Part again m next ∧
      Grows found next ∧ ∀ tag, tagOf? name key = some tag → SortedMap.get? next tag ≠ none := by
  unfold loadKey
  cases htag : tagOf? name key with
  | none =>
    exact ⟨found, quiet_absent found, hfound, fun _ hthere => hthere, fun tag h => nomatch h⟩
  | some tag =>
    obtain ⟨value, hvalue, rfl⟩ := h.belongs key node tag hkey htag
    obtain ⟨hnull, hload⟩ := h.rereads tag value hvalue
    have hfield : loadField loadOne fields key fresh = done (again value) .unchanged := by
      rw [loadField_of_get? hkey hnull, hload, under_done]
    simp only [hfield]
    refine ⟨SortedMap.insert found tag (again value), quiet_unchanged _, ?_, ?_, ?_⟩
    · intro other x hx
      rw [SortedMap.get?_insert] at hx
      by_cases heq : tag = other
      · rw [if_pos heq] at hx
        rw [← heq, hvalue, ← hx]
        rfl
      · rw [if_neg heq] at hx
        exact hfound other x hx
    · intro other hother
      rw [SortedMap.get?_insert]
      split
      · simp
      · exact hother
    · intro other hother
      cases hother
      rw [SortedMap.get?_insert_self]
      simp

/-- Some keys: in the end their languages are there. -/
theorem Holds.run (h : Holds loadOne fresh again store name m fields) (keys : List String)
    (hkeys : ∀ key ∈ keys, ∃ node, fields.get? key = some node) {found : Translated α}
    (hfound : Part again m found) {loaded : Loaded (Translated α)} (hloaded : loaded.Quiet found) :
    ∃ final, (keys.foldl (fun loaded key =>
        loaded.andThen (loadKey loadOne fresh fields name key)) loaded).Quiet final ∧
      Part again m final ∧ Grows found final ∧
      ∀ key ∈ keys, ∀ tag, tagOf? name key = some tag → SortedMap.get? final tag ≠ none := by
  induction keys generalizing found loaded with
  | nil => exact ⟨found, hloaded, hfound, fun _ hthere => hthere, fun key hkey => nomatch hkey⟩
  | cons key rest ih =>
    obtain ⟨⟨node, hnode⟩, hrest⟩ := List.forall_mem_cons.1 hkeys
    obtain ⟨next, hquiet, hnext, hgrows, hlanguage⟩ := h.step hnode hfound
    obtain ⟨final, hfinal, hpart, hlater, hlanguages⟩ := ih hrest hnext (hloaded.andThen hquiet)
    refine ⟨final, hfinal, hpart, fun tag hthere => hlater tag (hgrows tag hthere), ?_⟩
    exact List.forall_mem_cons.2 ⟨fun tag htag => hlater tag (hlanguage tag htag), hlanguages⟩

/-- **All languages of a stored property are loaded again.** -/
theorem Holds.quiet_load (h : Holds loadOne fresh again store name m fields) :
    (load loadOne fresh fields name .empty).Quiet (SortedMap.map again m) := by
  have hkeys : ∀ key ∈ fields.map (·.1), ∃ node, fields.get? key = some node := by
    intro key hkey
    refine Option.ne_none_iff_exists'.1 fun hnone => ?_
    obtain ⟨field, hfield, heq⟩ := List.mem_map.1 hkey
    exact Entries.get?_eq_none_iff.1 hnone field hfield heq
  have hstart : Part again m SortedMap.empty := fun tag x hx => nomatch hx
  obtain ⟨final, hfinal, hpart, _, hlanguages⟩ := h.run _ hkeys hstart (quiet_absent _)
  -- Nothing was found but languages of the map, and each of them was found.
  have heq : final = SortedMap.map again m := by
    refine SortedMap.ext_get? fun tag => ?_
    rw [SortedMap.get?_map]
    cases hvalue : SortedMap.get? m tag with
    | none =>
      refine Option.eq_none_iff_forall_ne_some.2 fun x hx => ?_
      have hmap := hpart tag x hx
      rw [hvalue] at hmap
      cases hmap
    | some value =>
      have hmem := Entries.mem_of_get? (h.present tag value hvalue)
      have hthere := hlanguages _ (List.mem_map_of_mem hmem) tag (tagOf?_keyFor name tag)
      obtain ⟨x, hx⟩ := Option.ne_none_iff_exists'.1 hthere
      rw [hx, ← hpart tag x hx, hvalue]
  exact heq ▸ hfinal

/-- A property among others holds its languages. -/
theorem Grouped.holds {groups : List (String × List (String × Json))} (hgroups : Grouped groups)
    (hname : Plain name) (hgroup : Entries.get? name groups = some (stored store name m))
    (hrereads : ∀ tag value, SortedMap.get? m tag = some value →
      (store value).isNull = false ∧ loadOne fresh (store value) = done (again value) .unchanged) :
    Holds loadOne fresh again store name m (storedObject (ungrouped groups)) where
  belongs := by
    intro key node tag hkey htag
    rw [get?_storedObject hgroups.nodup_keys] at hkey
    have hfield := (Option.filter_eq_some_iff.1 hkey).1
    rw [hgroups.get?, property_of_tagOf? hname htag, hgroup, Option.bind_some] at hfield
    obtain ⟨other, value, hvalue, heq⟩ := mem_stored.1 (Entries.mem_of_get? hfield)
    obtain ⟨rfl, rfl⟩ := Prod.mk.injEq _ _ _ _ ▸ heq
    rw [tagOf?_keyFor] at htag
    cases htag
    exact ⟨value, hvalue, rfl⟩
  present := by
    intro tag value hvalue
    have hfield : Entries.get? (keyFor name tag) (stored store name m) = some (store value) :=
      Entries.get?_of_mem (nodup_stored store name m) (mem_stored.2 ⟨tag, value, hvalue, rfl⟩)
    rw [get?_storedObject hgroups.nodup_keys, hgroups.get?, property_keyFor hname, hgroup,
      Option.bind_some, hfield]
    simp [(hrereads tag value hvalue).1]
  rereads := hrereads

/-- A property without languages is stored in one field. -/
theorem Grouped.get?_single {groups : List (String × List (String × Json))}
    (hgroups : Grouped groups) (hname : Plain name) {node : Json}
    (hgroup : Entries.get? name groups = some [(name, node)]) :
    Entries.get? name (ungrouped groups) = some node := by
  rw [hgroups.get?, property_of_plain hname, hgroup, Option.bind_some, Entries.get?_cons, if_pos rfl]

end Languages

end Translated

end FilmCatalog
