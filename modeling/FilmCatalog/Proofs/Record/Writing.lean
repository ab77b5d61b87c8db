/-
  FilmCatalog.Proofs.Record.Writing
  ─────────────────────────────────
  **A RECORD IS FOUND AGAIN IN ITS TEXT.**

  Everything that a repaired record stores can be written: its objects are put
  in key order, its numbers are naturals of 32 bits, seconds of the calendar
  and indices of people, and nothing in it is nested deeper than a poster in
  its languages.  So the text of the record is read as the document of the
  record (`read?_text`).
-/
import FilmCatalog.Catalog.Document
import FilmCatalog.Proofs.Json.RoundTrip
import FilmCatalog.Proofs.Record.RoundTrip

namespace FilmCatalog

open Json

/-! ## §1. Parts of a document. -/

section Parts

variable {α : Type} {store : α → Json} (depth : Nat)

@[simp] theorem writable_null : Writable depth .null := by
  cases depth <;> trivial

@[simp] theorem writable_string (text : String) : Writable depth (.string text) := by
  cases depth <;> trivial

@[simp] theorem writable_bool (value : Bool) : Writable depth (.bool value) := by
  cases depth <;> trivial

/-- A whole number is written and read back if it fits into a word. -/
theorem writable_ofInt {n : Int} (h : FitsWord n) : Writable depth (.ofInt n) := by
  cases depth <;> exact h

/-- An integer that a loader accepts fits 64 bits. -/
theorem fitsWord_of_toInt? {n : Int} (h : (Json.ofInt n).toInt? = some n) : FitsWord n := by
  have hrange : -9223372036854775808 ≤ n ∧ n < 9223372036854775808 := by
    refine Decidable.by_contra fun hout => ?_
    rw [Json.ofInt, toInt?, if_neg hout] at h
    cases h
  unfold FitsWord maxWord
  omega

theorem writable_storeUInt32 (n : UInt32) : Writable depth (storeUInt32 n) := by
  have hsmall : n.toNat < 4294967296 := n.toNat_lt
  have hword : FitsWord n.toNat := by
    unfold FitsWord maxWord
    omega
  exact writable_ofInt depth hword

variable {depth}

/-- An optional part is missing or what is stored for its value. -/
theorem writable_storeOptional {value : Option α} (h : ∀ x ∈ value, Writable depth (store x)) :
    Writable depth (storeOptional store value) := by
  cases value with
  | none => exact writable_null depth
  | some x => exact h x rfl

/-- A list adds one level to what is stored for its items. -/
theorem writable_storeList {items : List α} (h : ∀ item ∈ items, Writable depth (store item)) :
    Writable (depth + 1) (storeList store items) := by
  unfold storeList
  split
  · exact writable_null _
  · exact List.forall_mem_map.2 h

/-- Only parts that say something are stored. -/
theorem mem_storedObject {parts : List (String × Json)} {field : String × Json}
    (h : field ∈ storedObject parts) : field ∈ parts := by
  have hput : ∀ (fields : List (String × Json)) (all : Fields),
      field ∈ fields.foldl (fun all field => Fields.put all field.1 field.2) all →
      field ∈ fields ∨ field ∈ all := by
    intro fields
    induction fields with
    | nil => exact fun all hall => .inr hall
    | cons first rest ih =>
      intro all hall
      rcases ih _ hall with hrest | hput
      · exact .inl (List.mem_cons_of_mem _ hrest)
      · rcases Entries.mem_insertEntry hput with hfirst | hall
        · exact .inl (hfirst ▸ List.mem_cons_self)
        · exact .inr hall
  rcases hput _ _ h with hstored | hnil
  · exact List.mem_of_mem_filter hstored
  · cases hnil

/-- An object adds one level to its parts, and its keys ascend as they must. -/
theorem writable_storedObject {parts : List (String × Json)}
    (h : ∀ part ∈ parts, Writable depth part.2) :
    Writable (depth + 1) (.object (storedObject parts)) :=
  ⟨Entries.ascending_foldl_insertEntry _ List.Pairwise.nil,
    fun field hfield => h field (mem_storedObject hfield)⟩

/-- Stored fields are an object, or nothing at all. -/
theorem writable_storeFields {parts : List (String × Json)}
    (h : ∀ part ∈ parts, Writable depth part.2) : Writable (depth + 1) (storeFields parts) := by
  rcases storeFields_eq parts with ⟨hstore, _⟩ | hstore
  · rw [hstore]
    exact writable_null _
  · rw [hstore]
    exact writable_storedObject h

/-- Each language of a property is stored as its value is. -/
theorem writable_stored {m : Translated α} (name : String)
    (h : ∀ tag x, SortedMap.get? m tag = some x → Writable depth (store x)) :
    ∀ part ∈ Translated.stored store name m, Writable depth part.2 := by
  intro part hpart
  obtain ⟨tag, x, hget, rfl⟩ := Translated.mem_stored.1 hpart
  exact h tag x hget

end Parts

/-! ## §2. Parts of a record. -/

section Stores

variable (depth : Nat)

/-- A title is a text, or an object without further levels. -/
theorem Title.writable_store (t : Title) : Writable (depth + 1) t.store := by
  unfold store
  split
  · exact writable_string _ _
  · refine writable_storeFields ?_
    simp only [List.forall_mem_cons, List.not_mem_nil, false_imp_iff, implies_true, and_true]
    refine ⟨writable_string _ _, writable_storeOptional fun _ _ => writable_string _ _, ?_⟩
    cases t.original with
    | true => exact writable_bool _ _
    | false => exact writable_null _

/-- An image is a text, or a list of two. -/
theorem Image.writable_store (i : Image) : Writable (depth + 1) i.store := by
  unfold store
  split
  · exact writable_string _ _
  · split
    · exact writable_string _ _
    · show ∀ item ∈ [Json.string i.path, Json.string _], Writable depth item
      simp

/-- A set of posters is an object of images. -/
theorem PosterSet.writable_store (p : PosterSet) : Writable (depth + 2) p.store := by
  refine writable_storeFields ?_
  simp only [List.forall_mem_cons, List.not_mem_nil, false_imp_iff, implies_true, and_true]
  have hsize : ∀ image : Option Image, Writable (depth + 1) (storeOptional Image.store image) :=
    fun _ => writable_storeOptional fun image _ => image.writable_store depth
  exact ⟨hsize _, hsize _, hsize _⟩

/-- The deepest images are those of the posters: three levels. -/
theorem Artwork.writable_store (a : Artwork) : Writable (depth + 3) a.store := by
  refine writable_storeFields ?_
  simp only [List.forall_mem_append, List.forall_mem_cons, List.not_mem_nil, false_imp_iff,
    implies_true, and_true]
  refine ⟨⟨writable_stored _ ?_, writable_stored _ ?_⟩, writable_storeList ?_⟩
  · exact fun _ image _ => image.writable_store (depth + 1)
  · exact fun _ poster _ => poster.writable_store depth
  · exact fun image _ => image.writable_store depth

/-- Dates in the calendar are seconds that fit into a word. -/
theorem Dates.writable_store {d : Dates} (h : d.InCalendar) : Writable (depth + 1) d.store := by
  have hdate : ∀ date : Option Int, (∀ second ∈ date, Calendar.hasSecond second = true) →
      Writable depth (storeOptional .ofInt date) := by
    intro date hdate
    refine writable_storeOptional fun second hsecond => ?_
    exact writable_ofInt depth (fitsWord_of_toInt? (toInt?_second (hdate second hsecond)))
  refine writable_storeFields ?_
  simp only [List.forall_mem_cons, List.not_mem_nil, false_imp_iff, implies_true, and_true]
  exact ⟨hdate _ h.published, hdate _ h.stream, hdate _ h.poster⟩

theorem writable_natural (n : Option UInt32) : Writable depth (storeOptional storeUInt32 n) :=
  writable_storeOptional fun n _ => writable_storeUInt32 depth n

theorem Marker.writable_store (m : Marker) : Writable (depth + 1) m.store := by
  refine writable_storeFields ?_
  simp only [List.forall_mem_cons, List.not_mem_nil, false_imp_iff, implies_true, and_true]
  exact ⟨writable_string _ _, writable_storeUInt32 _ _, writable_natural _ _,
    writable_storeOptional fun _ _ => writable_string _ _⟩

/-- Markers stand in a list, each with fields of its own. -/
theorem Playback.writable_store (p : Playback) : Writable (depth + 3) p.store := by
  refine writable_storeFields ?_
  simp only [List.forall_mem_cons, List.not_mem_nil, false_imp_iff, implies_true, and_true]
  exact ⟨writable_natural _ _, writable_natural _ _,
    writable_storeList fun marker _ => marker.writable_store depth⟩

/-- A role is the index of a person, which fits into a word. -/
theorem Role.writable_store {r : Role} (h : FitsWord r.id) : Writable (depth + 1) r.store := by
  unfold store
  split
  · exact writable_ofInt _ h
  · show ∀ item ∈ [Json.ofInt r.id, Json.string _], Writable depth item
    simp [writable_ofInt depth h]

theorem Person.writable_store (p : Person) : Writable (depth + 1) p.store := by
  unfold store
  split
  · exact writable_string _ _
  · show ∀ item ∈ Json.string p.name :: p.refs.map Json.string, Writable depth item
    simp

/-- The crew of a document is small enough for its indices to be written. -/
theorem Crew.writable_store {c : Crew} (h : c.Normal) (hmodest : c.Modest) :
    Writable (depth + 3) c.store := by
  have hrole : ∀ role ∈ c.allRoles, Writable (depth + 1) role.store := fun role hrole =>
    role.writable_store depth (fitsWord_of_toInt? (toInt?_id h hmodest hrole))
  unfold allRoles at hrole
  simp only [List.forall_mem_append] at hrole
  refine writable_storeFields ?_
  simp only [List.forall_mem_cons, List.not_mem_nil, false_imp_iff, implies_true, and_true]
  exact ⟨writable_storeList hrole.1.1, writable_storeList hrole.1.2, writable_storeList hrole.2,
    writable_storeList fun person _ => person.writable_store depth⟩

end Stores

/-! ## §3. Records. -/

namespace Record

/-- **A repaired record can be written**, in four levels of containers. -/
theorem writable_toJson {r : Record} (h : Repaired (fun c => c.Normal ∧ c.Modest) r) (depth : Nat) :
    Writable (depth + 4) r.toJson := by
  have htexts : ∀ texts, Writable (depth + 3) (storeTexts texts) :=
    fun _ => writable_storeList fun _ _ => writable_string _ _
  rw [toJson_eq]
  unfold fields
  rw [← storedParts_eq]
  refine writable_storedObject ?_
  unfold storedParts
  simp only [List.forall_mem_append, List.forall_mem_cons, List.not_mem_nil, false_imp_iff,
    implies_true, and_true]
  refine ⟨⟨⟨⟨⟨htexts _, ?_⟩, htexts _, htexts _, htexts _, htexts _, htexts _, ?_⟩, ?_⟩, ?_⟩, ?_, ?_,
    writable_natural _ _, writable_natural _ _, writable_natural _ _, ?_⟩
  · exact writable_stored _ fun _ title _ => title.writable_store (depth + 2)
  · exact Crew.writable_store depth h.crew.1 h.crew.2
  · exact writable_stored _ fun _ _ _ => writable_string _ _
  · exact writable_stored _ fun _ _ _ => writable_string _ _
  · exact r.image.writable_store depth
  · exact Dates.writable_store (depth + 2) h.dates
  · exact r.video.writable_store depth

/-- **The text of a record is read as the document of the record.** -/
theorem read?_text {r : Record} (h : Repaired (fun c => c.Normal ∧ c.Modest) r) :
    Json.read? r.text = some r.toJson :=
  Json.read?_pretty (writable_toJson h 123)

end Record

end FilmCatalog
