/-
  FilmCatalog.Proofs.Json.Size
  ────────────────────────────
  **THE SIZE OF A DOCUMENT.**

  Lists of this library have any length, those of a machine do not: a document
  that was read has room in memory (`Addressable`), and with it every list in
  it.  Only what counts the items of a list in 64 bits has to know this.
-/
import FilmCatalog.Proofs.SortedMap
import FilmCatalog.Json.Basic

namespace FilmCatalog.Json

/-! ## §1. Values in memory. -/

mutual

/-- The number of values that a value is made of, itself among them. -/
def count : Json → Nat
  | .array items => 1 + countItems items
  | .object fields => 1 + countFields fields
  | _ => 1

/-- The number of values that some items are made of. -/
def countItems : List Json → Nat
  | [] => 0
  | item :: rest => item.count + countItems rest

/-- The number of values that some fields are made of. -/
def countFields : List (String × Json) → Nat
  | [] => 0
  | (_, value) :: rest => value.count + countFields rest

end

/-- The number of words of eight bytes in half of a 64-bit address space, the
sixtieth power of two. -/
def room : Nat := 1152921504606846976

/-- **The value has room in the memory of a 64-bit machine**, where each value
that it is made of takes a word at least. -/
def Addressable (v : Json) : Prop := v.count ≤ room

/-! ## §2. The size of the parts. -/

/-- A value counts for itself. -/
theorem count_pos (v : Json) : 0 < v.count := by
  cases v with
  | array items => exact Nat.add_pos_left Nat.one_pos _
  | object fields => exact Nat.add_pos_left Nat.one_pos _
  | _ => exact Nat.one_pos

/-- Each item of a list counts for one at least. -/
theorem length_le_countItems (items : List Json) : items.length ≤ countItems items := by
  induction items with
  | nil => exact Nat.le_refl 0
  | cons item rest ih =>
    have hitem := item.count_pos
    rw [List.length_cons, countItems]
    omega

/-- A list that fits into memory has a length that fits into a word. -/
theorem Addressable.length_le {items : List Json} (h : (Json.array items).Addressable) :
    items.length ≤ room := by
  have hitems := length_le_countItems items
  unfold Addressable at h
  rw [count] at h
  omega

/-- An item counts for no more than all items together. -/
theorem count_le_countItems {items : List Json} {item : Json} (h : item ∈ items) :
    item.count ≤ countItems items := by
  induction items with
  | nil => cases h
  | cons head rest ih =>
    rw [countItems]
    rcases List.mem_cons.1 h with rfl | h
    · omega
    · have hrest := ih h
      omega

/-- Each field of an object counts for one at least. -/
theorem length_le_countFields (fields : Fields) : fields.length ≤ countFields fields := by
  induction fields with
  | nil => exact Nat.le_refl 0
  | cons field rest ih =>
    have hvalue := field.2.count_pos
    rw [List.length_cons, countFields]
    omega

/-- A field counts for no more than all fields together. -/
theorem count_le_of_mem_fields {fields : Fields} {field : String × Json} (h : field ∈ fields) :
    field.2.count ≤ countFields fields := by
  induction fields with
  | nil => cases h
  | cons head rest ih =>
    rw [countFields]
    rcases List.mem_cons.1 h with rfl | h
    · omega
    · have hrest := ih h
      omega

/-- So does the field that is found under a key. -/
theorem count_le_countFields {fields : Fields} {key : String} {node : Json}
    (h : fields.get? key = some node) : node.count ≤ countFields fields :=
  count_le_of_mem_fields (Entries.mem_of_get? h)

/-- A part of what fits into memory fits into memory. -/
theorem Addressable.get? {fields : Fields} (h : (Json.object fields).Addressable) {key : String}
    {node : Json} (hget : fields.get? key = some node) : node.Addressable := by
  have hnode := count_le_countFields hget
  unfold Addressable at h ⊢
  rw [count] at h
  omega

end FilmCatalog.Json
