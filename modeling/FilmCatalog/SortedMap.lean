/-
  FilmCatalog.SortedMap
  ─────────────────────
  **MAPS THAT ARE KEPT IN KEY ORDER.**

  A map from text to values is the list of its entries in strictly ascending
  order of their keys.  The order is part of the type, so two maps with the
  same entries are equal, and every listing comes out in key order.

  Insertion works on plain entry lists first (`insertEntry`): the fields of a
  JSON object are such a list without the promise.
-/

namespace FilmCatalog

/-! ## §1. Entry lists. -/

namespace Entries

variable {α : Type}

/-- The value of the first entry under `key`. -/
def get? (key : String) : List (String × α) → Option α
  | [] => none
  | (k, value) :: rest => if k = key then some value else get? key rest

/-- Puts `value` under `key`, in key order; a value already there is
replaced. -/
def insertEntry (key : String) (value : α) : List (String × α) → List (String × α)
  | [] => [(key, value)]
  | (k, v) :: rest =>
      if key < k then (key, value) :: (k, v) :: rest
      else if k = key then (key, value) :: rest
      else (k, v) :: insertEntry key value rest

/-- Entries in strictly ascending key order. -/
def Ascending (entries : List (String × α)) : Prop :=
  entries.Pairwise fun a b => a.1 < b.1

theorem mem_insertEntry {key : String} {value : α} {entry : String × α}
    {entries : List (String × α)} (h : entry ∈ insertEntry key value entries) :
    entry = (key, value) ∨ entry ∈ entries := by
  induction entries with
  | nil => simpa [insertEntry] using h
  | cons head rest ih =>
    obtain ⟨k, v⟩ := head
    rw [insertEntry] at h
    split at h
    · simpa using h
    · split at h
      · rcases List.mem_cons.1 h with h | h
        · exact .inl h
        · exact .inr (List.mem_cons_of_mem _ h)
      · rcases List.mem_cons.1 h with h | h
        · exact .inr (h ▸ List.mem_cons_self)
        · exact (ih h).imp_right (List.mem_cons_of_mem _)

theorem ascending_insertEntry (key : String) (value : α) {entries : List (String × α)}
    (h : Ascending entries) : Ascending (insertEntry key value entries) := by
  induction entries with
  | nil => simp [insertEntry, Ascending]
  | cons head rest ih =>
    obtain ⟨k, v⟩ := head
    obtain ⟨hhead, hrest⟩ := List.pairwise_cons.1 h
    rw [insertEntry]
    split
    · rename_i hlt
      refine List.pairwise_cons.2 ⟨fun entry hentry => ?_, h⟩
      rcases List.mem_cons.1 hentry with rfl | hentry
      · exact hlt
      · exact String.lt_trans hlt (hhead entry hentry)
    · split
      · rename_i heq
        exact List.pairwise_cons.2 ⟨fun entry hentry => heq ▸ hhead entry hentry, hrest⟩
      · rename_i hge hne
        refine List.pairwise_cons.2 ⟨fun entry hentry => ?_, ih hrest⟩
        rcases mem_insertEntry hentry with rfl | hentry
        · have hle : k ≤ key := hge
          exact Std.lt_of_le_of_ne hle hne
        · exact hhead entry hentry

end Entries

/-! ## §2. Maps. -/

/-- A map from text to `α`, listed in key order. -/
structure SortedMap (α : Type) where
  entries : List (String × α)
  ascending : Entries.Ascending entries
  deriving DecidableEq

namespace SortedMap

variable {α β : Type}

@[ext] theorem ext {m n : SortedMap α} (h : m.entries = n.entries) : m = n := by
  cases m; cases n; cases h; rfl

/-- The map without entries. -/
def empty : SortedMap α := ⟨[], .nil⟩

instance : Inhabited (SortedMap α) := ⟨empty⟩

/-- The keys, ascending. -/
def keys (m : SortedMap α) : List String := m.entries.map (·.1)

/-- The values, in the order of their keys. -/
def values (m : SortedMap α) : List α := m.entries.map (·.2)

/-- The number of entries. -/
def size (m : SortedMap α) : Nat := m.entries.length

/-- Whether there is no entry. -/
def isEmpty (m : SortedMap α) : Bool := m.entries.isEmpty

/-- The value under `key`. -/
def get? (m : SortedMap α) (key : String) : Option α := Entries.get? key m.entries

/-- Whether there is a value under `key`. -/
def contains (m : SortedMap α) (key : String) : Bool := (m.get? key).isSome

/-- Puts `value` under `key`, in place of one that is there. -/
def insert (m : SortedMap α) (key : String) (value : α) : SortedMap α :=
  ⟨Entries.insertEntry key value m.entries, Entries.ascending_insertEntry key value m.ascending⟩

/-- Keeps the entries that satisfy the test. -/
def filter (keep : String → α → Bool) (m : SortedMap α) : SortedMap α :=
  ⟨m.entries.filter fun entry => keep entry.1 entry.2, m.ascending.filter _⟩

/-- Leaves out the entry under `key`. -/
def erase (m : SortedMap α) (key : String) : SortedMap α :=
  m.filter fun k _ => k ≠ key

/-- Changes every value, with its key at hand. -/
def mapWithKey (f : String → α → β) (m : SortedMap α) : SortedMap β :=
  ⟨m.entries.map fun entry => (entry.1, f entry.1 entry.2),
    by simpa [Entries.Ascending, List.pairwise_map] using m.ascending⟩

/-- Changes every value. -/
def map (f : α → β) (m : SortedMap α) : SortedMap β := m.mapWithKey fun _ => f

/-- Changes every value, or drops its entry. -/
def filterMap (f : String → α → Option β) (m : SortedMap α) : SortedMap β :=
  ⟨m.entries.filterMap fun entry => (f entry.1 entry.2).map fun value => (entry.1, value), by
    refine List.pairwise_filterMap.2 (m.ascending.imp ?_)
    intro a b hab a' ha b' hb
    simp only [Option.map_eq_some_iff] at ha hb
    obtain ⟨_, _, rfl⟩ := ha
    obtain ⟨_, _, rfl⟩ := hb
    exact hab⟩

/-- The map of a list of entries; of two entries under one key the later
counts. -/
def ofList (entries : List (String × α)) : SortedMap α :=
  entries.foldl (fun m entry => m.insert entry.1 entry.2) empty

/-- The entries of both maps; under a common key the value of `n` counts. -/
def override (m n : SortedMap α) : SortedMap α :=
  n.entries.foldl (fun all entry => all.insert entry.1 entry.2) m

/-- Whether the test holds of every entry. -/
def all (test : String → α → Bool) (m : SortedMap α) : Bool :=
  m.entries.all fun entry => test entry.1 entry.2

/-- Whether the test holds of some entry. -/
def any (test : String → α → Bool) (m : SortedMap α) : Bool :=
  m.entries.any fun entry => test entry.1 entry.2

end SortedMap

end FilmCatalog
