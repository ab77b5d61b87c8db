/-
  FilmCatalog.Proofs.SortedMap
  ────────────────────────────
  **LOOKUP DECIDES A MAP.**

  Every operation on sorted maps is described by what it does to `get?`, and
  two maps with the same `get?` are equal (`ext_get?`).  Nothing after this
  module opens an insertion or an erasure again.

    • entry lists: lookup in a list that is put together, changed or filtered,
    • maps: `get?` after `insert`, `erase`, `filter`, `map`, `ofList`,
    • insertion of what is there already changes nothing (`insert_of_get?`),
      so a map put together from its own entries is the map again.
-/
import FilmCatalog.SortedMap

namespace FilmCatalog

/-! ## §1. Lookup in entry lists. -/

namespace Entries

variable {α β : Type}

@[simp] theorem get?_nil (key : String) : get? key ([] : List (String × α)) = none := rfl

theorem get?_cons (key k : String) (value : α) (rest : List (String × α)) :
    get? key ((k, value) :: rest) = if k = key then some value else get? key rest := rfl

/-- What the first entries do not hold is looked up in the others. -/
theorem get?_append (key : String) (entries others : List (String × α)) :
    get? key (entries ++ others) = (get? key entries).or (get? key others) := by
  induction entries with
  | nil => rfl
  | cons head rest ih =>
    obtain ⟨k, v⟩ := head
    rw [List.cons_append, get?_cons, get?_cons, ih]
    by_cases h : k = key
    · rw [if_pos h, if_pos h, Option.some_or]
    · rw [if_neg h, if_neg h]

/-- A value that is found stands in an entry. -/
theorem mem_of_get? {key : String} {value : α} {entries : List (String × α)}
    (h : get? key entries = some value) : (key, value) ∈ entries := by
  induction entries with
  | nil => cases h
  | cons head rest ih =>
    obtain ⟨k, v⟩ := head
    rw [get?_cons] at h
    by_cases hk : k = key
    · rw [if_pos hk] at h
      cases h
      exact hk ▸ List.mem_cons_self
    · rw [if_neg hk] at h
      exact List.mem_cons_of_mem _ (ih h)

/-- Nothing is found exactly if no entry has the key. -/
theorem get?_eq_none_iff {key : String} {entries : List (String × α)} :
    get? key entries = none ↔ ∀ entry ∈ entries, entry.1 ≠ key := by
  induction entries with
  | nil => simp
  | cons head rest ih =>
    obtain ⟨k, v⟩ := head
    rw [get?_cons]
    by_cases hk : k = key
    · simp [hk]
    · simp [hk, ih]

/-- Keys that differ make every entry the first under its key. -/
theorem get?_of_mem {key : String} {value : α} {entries : List (String × α)}
    (hkeys : (entries.map (·.1)).Nodup) (h : (key, value) ∈ entries) :
    get? key entries = some value := by
  induction entries with
  | nil => cases h
  | cons head rest ih =>
    obtain ⟨k, v⟩ := head
    obtain ⟨hnew, hrest⟩ := List.nodup_cons.1 hkeys
    rw [get?_cons]
    rcases List.mem_cons.1 h with h | h
    · cases h
      exact if_pos rfl
    · have hne : k ≠ key := by
        intro heq
        exact hnew (List.mem_map.2 ⟨(key, value), h, heq.symm⟩)
      rw [if_neg hne]
      exact ih hrest h

/-- Keys in ascending order are all different. -/
theorem nodup_keys {entries : List (String × α)} (h : Ascending entries) :
    (entries.map (·.1)).Nodup := by
  refine List.pairwise_map.2 (h.imp ?_)
  intro a b hab heq
  exact String.lt_irrefl b.1 (heq ▸ hab)

/-- After an insertion the new value is found under its key, and all else as
before. -/
theorem get?_insertEntry (key other : String) (value : α) (entries : List (String × α)) :
    get? other (insertEntry key value entries)
      = if key = other then some value else get? other entries := by
  induction entries with
  | nil => rfl
  | cons head rest ih =>
    obtain ⟨k, v⟩ := head
    rw [insertEntry]
    -- The entry goes before the head, takes its place, or goes further back.
    split
    · rw [get?_cons]
    · split
      · rename_i hk
        subst hk
        rw [get?_cons, get?_cons]
        by_cases h : k = other
        · rw [if_pos h, if_pos h]
        · rw [if_neg h, if_neg h, if_neg h]
      · rename_i hk
        rw [get?_cons, get?_cons, ih]
        by_cases h : k = other
        · have hne : ¬ key = other := fun heq => hk (h.trans heq.symm)
          rw [if_pos h, if_pos h, if_neg hne]
        · rw [if_neg h, if_neg h]

/-- A new value is counted, and the one that it replaces no longer. -/
theorem countP_insertEntry (p : α → Bool) (key : String) (value : α) {entries : List (String × α)}
    (h : Ascending entries) :
    (insertEntry key value entries).countP (fun entry => p entry.2)
        + ((get? key entries).elim 0 fun old => if p old then 1 else 0)
      = entries.countP (fun entry => p entry.2) + if p value then 1 else 0 := by
  induction entries with
  | nil => simp [insertEntry]
  | cons head rest ih =>
    obtain ⟨k, v⟩ := head
    obtain ⟨hhead, hrest⟩ := List.pairwise_cons.1 h
    rw [insertEntry]
    split
    · -- All keys are behind the new one.
      rename_i hlt
      have hnone : get? key ((k, v) :: rest) = none := by
        refine get?_eq_none_iff.2 (List.forall_mem_cons.2 ⟨?_, fun entry hentry => ?_⟩)
        · exact fun heq => String.lt_irrefl key (heq ▸ hlt)
        · exact fun heq => String.lt_irrefl key (String.lt_trans hlt (heq ▸ hhead entry hentry))
      rw [hnone, List.countP_cons]
      simp
    · split
      · -- The head is the one that is replaced.
        rename_i hk
        rw [get?_cons, if_pos hk, List.countP_cons, List.countP_cons]
        simp only [Option.elim_some]
        omega
      · rename_i hk
        have hcount := ih hrest
        rw [get?_cons, if_neg hk, List.countP_cons, List.countP_cons]
        omega

/-- A change of values is seen by every lookup. -/
theorem get?_map (f : String → α → β) (key : String) (entries : List (String × α)) :
    get? key (entries.map fun entry => (entry.1, f entry.1 entry.2))
      = (get? key entries).map (f key) := by
  induction entries with
  | nil => rfl
  | cons head rest ih =>
    obtain ⟨k, v⟩ := head
    rw [List.map_cons, get?_cons, get?_cons, ih]
    by_cases h : k = key
    · rw [if_pos h, if_pos h, h, Option.map_some]
    · rw [if_neg h, if_neg h]

/-- Where keys do not repeat, a filter is seen by every lookup. -/
theorem get?_filter (keep : String → α → Bool) (key : String) {entries : List (String × α)}
    (hkeys : (entries.map (·.1)).Nodup) :
    get? key (entries.filter fun entry => keep entry.1 entry.2)
      = (get? key entries).filter (keep key) := by
  induction entries with
  | nil => rfl
  | cons head rest ih =>
    obtain ⟨k, v⟩ := head
    obtain ⟨hnew, hrest⟩ := List.nodup_cons.1 hkeys
    by_cases h : k = key
    · subst h
      -- If the head goes, nothing else stands under its key.
      have hgone : get? k rest = none :=
        get?_eq_none_iff.2 fun entry hentry heq => hnew (List.mem_map.2 ⟨entry, hentry, heq⟩)
      rw [List.filter_cons, get?_cons, if_pos rfl, Option.filter_some]
      split
      · rw [get?_cons, if_pos rfl]
      · rw [ih hrest, hgone, Option.filter_none]
    · rw [List.filter_cons, get?_cons, if_neg h]
      split
      · rw [get?_cons, if_neg h, ih hrest]
      · exact ih hrest

/-- A list in ascending order is decided by its lookups: a lookup decides
membership, and the order decides the rest. -/
theorem eq_of_get? {entries others : List (String × α)} (hentries : Ascending entries)
    (hothers : Ascending others) (h : ∀ key, get? key entries = get? key others) :
    entries = others := by
  have hmem : ∀ entry, entry ∈ entries ↔ entry ∈ others := by
    intro entry
    constructor
    · intro he
      exact mem_of_get? ((h entry.1).symm.trans (get?_of_mem (nodup_keys hentries) he))
    · intro he
      exact mem_of_get? ((h entry.1).trans (get?_of_mem (nodup_keys hothers) he))
  have hnodup : ∀ {l : List (String × α)}, Ascending l → l.Nodup := by
    intro l hl
    refine List.Pairwise.imp ?_ hl
    intro a b hab heq
    exact String.lt_irrefl b.1 (heq ▸ hab)
  -- The same entries, each of them once: only the order is left.
  have hperm : entries.Perm others :=
    (List.perm_ext_iff_of_nodup (hnodup hentries) (hnodup hothers)).2 hmem
  refine List.Perm.eq_of_pairwise ?_ hentries hothers hperm
  intro a b _ _ hab hba
  exact absurd hba (String.lt_asymm hab)

/-- Of several insertions the last one under a key counts. -/
theorem get?_foldl_insertEntry (key : String) (fields entries : List (String × α)) :
    get? key (fields.foldl (fun all field => insertEntry field.1 field.2 all) entries)
      = (get? key fields.reverse).or (get? key entries) := by
  -- The first field is inserted first, so it is asked after all others.
  induction fields generalizing entries with
  | nil => rfl
  | cons head rest ih =>
    rw [List.foldl_cons, ih, List.reverse_cons, get?_append, get?_insertEntry, get?_cons,
      Option.or_assoc]
    congr 1
    by_cases h : head.1 = key
    · rw [if_pos h, if_pos h, Option.some_or]
    · rw [if_neg h, if_neg h, get?_nil, Option.none_or]

/-- Where keys do not repeat, the order of entries is of no importance. -/
theorem get?_reverse {key : String} {entries : List (String × α)}
    (hkeys : (entries.map (·.1)).Nodup) : get? key entries.reverse = get? key entries := by
  have hback : (entries.reverse.map (·.1)).Nodup := by
    rw [List.map_reverse]
    exact (List.reverse_perm _).nodup_iff.2 hkeys
  cases h : get? key entries with
  | none =>
    refine get?_eq_none_iff.2 fun entry hentry => ?_
    exact get?_eq_none_iff.1 h entry (List.mem_reverse.1 hentry)
  | some value => exact get?_of_mem hback (List.mem_reverse.2 (mem_of_get? h))

/-- Insertions keep the order of keys. -/
theorem ascending_foldl_insertEntry (fields : List (String × α)) {entries : List (String × α)}
    (h : Ascending entries) :
    Ascending (fields.foldl (fun all field => insertEntry field.1 field.2 all) entries) := by
  induction fields generalizing entries with
  | nil => exact h
  | cons field rest ih => exact ih (ascending_insertEntry field.1 field.2 h)

/-- Entries that are in order stay what they are when they are put in order. -/
theorem foldl_insertEntry_of_ascending {entries : List (String × α)} (h : Ascending entries) :
    entries.foldl (fun all entry => insertEntry entry.1 entry.2 all) [] = entries := by
  refine eq_of_get? (ascending_foldl_insertEntry entries List.Pairwise.nil) h fun key => ?_
  rw [get?_foldl_insertEntry, get?_reverse (nodup_keys h), get?_nil, Option.or_none]

end Entries

/-! ## §2. Lookup in maps. -/

namespace SortedMap

variable {α β : Type}

/-- Two maps with the same lookups are equal. -/
theorem ext_get? {m n : SortedMap α} (h : ∀ key, m.get? key = n.get? key) : m = n :=
  SortedMap.ext (Entries.eq_of_get? m.ascending n.ascending h)

/-- An entry of a map is what is found under its key. -/
theorem mem_entries_iff {m : SortedMap α} {key : String} {value : α} :
    (key, value) ∈ m.entries ↔ m.get? key = some value :=
  ⟨Entries.get?_of_mem (Entries.nodup_keys m.ascending), Entries.mem_of_get?⟩

theorem get?_of_mem_entries {m : SortedMap α} {entry : String × α} (h : entry ∈ m.entries) :
    m.get? entry.1 = some entry.2 := mem_entries_iff.1 h

/-- The values of a map are what is found under some key. -/
theorem mem_values_iff {m : SortedMap α} {value : α} :
    value ∈ m.values ↔ ∃ key, m.get? key = some value := by
  unfold values
  constructor
  · intro h
    obtain ⟨entry, hentry, rfl⟩ := List.mem_map.1 h
    exact ⟨entry.1, get?_of_mem_entries hentry⟩
  · rintro ⟨key, h⟩
    exact List.mem_map.2 ⟨(key, value), mem_entries_iff.2 h, rfl⟩

/-- The keys of a map are those under which something is found. -/
theorem mem_keys_iff {m : SortedMap α} {key : String} :
    key ∈ m.keys ↔ ∃ value, m.get? key = some value := by
  unfold keys
  constructor
  · intro h
    obtain ⟨entry, hentry, rfl⟩ := List.mem_map.1 h
    exact ⟨entry.2, get?_of_mem_entries hentry⟩
  · rintro ⟨value, h⟩
    exact List.mem_map.2 ⟨(key, value), mem_entries_iff.2 h, rfl⟩

theorem pairwise_keys (m : SortedMap α) : m.keys.Pairwise (· < ·) := List.pairwise_map.2 m.ascending

theorem nodup_keys (m : SortedMap α) : m.keys.Nodup := Entries.nodup_keys m.ascending

@[simp] theorem get?_empty (key : String) : (empty : SortedMap α).get? key = none := rfl

theorem contains_eq_false_iff {m : SortedMap α} {key : String} :
    m.contains key = false ↔ m.get? key = none := by
  unfold contains
  rw [Option.isSome_eq_false_iff, Option.isNone_iff_eq_none]

/-- An insertion changes what is found under its key, and nothing else. -/
theorem get?_insert (m : SortedMap α) (key other : String) (value : α) :
    (m.insert key value).get? other = if key = other then some value else m.get? other :=
  Entries.get?_insertEntry key other value m.entries

@[simp] theorem get?_insert_self (m : SortedMap α) (key : String) (value : α) :
    (m.insert key value).get? key = some value := by
  rw [get?_insert, if_pos rfl]

theorem get?_insert_of_ne (m : SortedMap α) {key other : String} (value : α) (h : key ≠ other) :
    (m.insert key value).get? other = m.get? other := by
  rw [get?_insert, if_neg h]

/-- A filter drops what is found and fails the test. -/
theorem get?_filter (keep : String → α → Bool) (m : SortedMap α) (key : String) :
    (m.filter keep).get? key = (m.get? key).filter (keep key) :=
  Entries.get?_filter keep key (Entries.nodup_keys m.ascending)

/-- What is erased is not found, and all else is. -/
theorem get?_erase (m : SortedMap α) (key other : String) :
    (m.erase key).get? other = if key = other then none else m.get? other := by
  unfold erase
  rw [get?_filter]
  by_cases h : key = other
  · rw [if_pos h]
    cases m.get? other with
    | none => rfl
    | some value => simp [h]
  · rw [if_neg h]
    have h' : ¬ other = key := fun heq => h heq.symm
    cases m.get? other with
    | none => rfl
    | some value => simp [h']

theorem get?_mapWithKey (f : String → α → β) (m : SortedMap α) (key : String) :
    (m.mapWithKey f).get? key = (m.get? key).map (f key) :=
  Entries.get?_map f key m.entries

theorem get?_map (f : α → β) (m : SortedMap α) (key : String) :
    (m.map f).get? key = (m.get? key).map f := get?_mapWithKey (fun _ => f) m key

/-! ## §3. Changes that change nothing. -/

/-- What stands under a key already may be put there again. -/
theorem insert_of_get? {m : SortedMap α} {key : String} {value : α}
    (h : m.get? key = some value) : m.insert key value = m := by
  refine ext_get? fun other => ?_
  rw [get?_insert]
  by_cases hk : key = other
  · rw [if_pos hk, ← hk, h]
  · rw [if_neg hk]

/-- A filter that every entry passes changes nothing. -/
theorem filter_eq_self {m : SortedMap α} {keep : String → α → Bool}
    (h : ∀ key value, m.get? key = some value → keep key value = true) : m.filter keep = m := by
  refine ext_get? fun key => ?_
  rw [get?_filter]
  cases hv : m.get? key with
  | none => rfl
  | some value => rw [Option.filter_some, if_pos (h key value hv)]

/-- A map stays as it is exactly if each value does. -/
theorem map_eq_self {m : SortedMap α} {f : α → α} :
    m.map f = m ↔ ∀ key value, m.get? key = some value → f value = value := by
  constructor
  · intro h key value hv
    have hmap := get?_map f m key
    rw [h, hv, Option.map_some] at hmap
    exact (Option.some.inj hmap).symm
  · intro h
    refine ext_get? fun key => ?_
    rw [get?_map]
    cases hv : m.get? key with
    | none => rfl
    | some value => rw [Option.map_some, h key value hv]

/-- Of several insertions under one key the last one counts. -/
theorem get?_foldl_insert (key : String) (entries : List (String × α)) (m : SortedMap α) :
    (entries.foldl (fun all entry => all.insert entry.1 entry.2) m).get? key
      = (Entries.get? key entries.reverse).or (m.get? key) := by
  induction entries generalizing m with
  | nil => rfl
  | cons head rest ih =>
    rw [List.foldl_cons, ih, List.reverse_cons, Entries.get?_append, get?_insert,
      Entries.get?_cons, Option.or_assoc]
    congr 1
    by_cases h : head.1 = key
    · rw [if_pos h, if_pos h, Option.some_or]
    · rw [if_neg h, if_neg h, Entries.get?_nil, Option.none_or]

/-- Under a common key the value of the second map counts. -/
theorem get?_override (m n : SortedMap α) (key : String) :
    (m.override n).get? key = (n.get? key).or (m.get? key) := by
  unfold override
  rw [get?_foldl_insert, Entries.get?_reverse (Entries.nodup_keys n.ascending)]
  rfl

/-- Of several entries under one key the last counts. -/
theorem get?_ofList (entries : List (String × α)) (key : String) :
    (ofList entries).get? key = Entries.get? key entries.reverse := by
  unfold ofList
  rw [get?_foldl_insert, get?_empty, Option.or_none]

/-- A map put together from its own entries is the map again. -/
theorem ofList_entries (m : SortedMap α) : ofList m.entries = m := by
  refine ext_get? fun key => ?_
  rw [get?_ofList, Entries.get?_reverse (Entries.nodup_keys m.ascending)]
  rfl

/-- A map that is overridden by itself is the map again. -/
theorem override_self (m : SortedMap α) : m.override m = m := by
  refine ext_get? fun key => ?_
  rw [get?_override]
  cases m.get? key <;> rfl

end SortedMap

end FilmCatalog
