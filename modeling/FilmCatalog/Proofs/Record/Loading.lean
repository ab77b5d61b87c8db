/-
  FilmCatalog.Proofs.Record.Loading
  ─────────────────────────────────
  **WHAT HOLDS OF EVERY LOADED RECORD.**

  The fields are loaded one after the other, and each step leaves the other
  fields alone.  So a property of the crew that every load of a crew ensures
  holds of the record's crew in the end, and with it the normal form of
  titles, the tidiness of images and the range of dates (`Tidy`).  The repairs
  at the end add that no tag stands twice and that no original title is
  unneeded (`Repaired`).
-/
import FilmCatalog.Proofs.Artwork.Loading
import FilmCatalog.Proofs.Crew.Loading
import FilmCatalog.Proofs.Titles.NormalForm
import FilmCatalog.Record.Load

namespace FilmCatalog

open Loaded

variable {isRemote : String → Bool}

/-! ## §1. Dates. -/

/-- All dates lie in the calendar. -/
structure Dates.InCalendar (d : Dates) : Prop where
  published : ∀ second ∈ d.published, Calendar.hasSecond second = true
  stream : ∀ second ∈ d.stream, Calendar.hasSecond second = true
  poster : ∀ second ∈ d.poster, Calendar.hasSecond second = true

theorem Dates.inCalendar_none : InCalendar none where
  published := by simp [none]
  stream := by simp [none]
  poster := by simp [none]

/-- Dates that are loaded are in the calendar. -/
theorem Dates.ensures_load {old : Dates} (hold : old.InCalendar) (node : Json) :
    (load old node).Ensures InCalendar := by
  have hsecond : ∀ fields key before, (loadOptional loadSecond 0 fields key before).Ensures
      fun date => ∀ second ∈ date, Calendar.hasSecond second = true := by
    intro fields key before
    refine ensures_loadOptional fun node => Ensures.yields (ensures_loadScalar fun second hread => ?_)
    obtain ⟨found, _, hfound⟩ := Option.bind_eq_some_iff.1 hread
    split at hfound
    · rename_i hin
      cases hfound
      exact hin
    · cases hfound
  refine ensures_withFields fun fields _ => ?_
  refine ((ensures_done hold).andThen ?_).andThen ?_ |>.andThen ?_
  · exact fun d hd => ensures_into ((hsecond fields "published" d.published).imp
      fun published h => ⟨h, hd.stream, hd.poster⟩)
  · exact fun d hd => ensures_into ((hsecond fields "stream" d.stream).imp
      fun stream h => ⟨hd.published, h, hd.poster⟩)
  · exact fun d hd => ensures_into ((hsecond fields "poster" d.poster).imp
      fun poster h => ⟨hd.published, hd.stream, h⟩)

namespace Record

/-! ## §2. Fields. -/

/-- A record whose crew has the property `C` and whose other fields are as a
load leaves them. -/
structure Tidy (C : Crew → Prop) (r : Record) : Prop where
  crew : C r.crew
  title : Translated.Forall Title.Normal r.title
  image : r.image.Tidy
  dates : r.dates.InCalendar

variable {C : Crew → Prop}

theorem tidy_empty (h : C .empty) : Tidy C empty where
  crew := h
  title := Translated.forall_empty
  image := Artwork.tidy_none
  dates := Dates.inCalendar_none

/-- A step that only writes a field which no property is about. -/
theorem ensures_elsewhere {α : Type} {loaded : Loaded α} {place : α → Record}
    (h : ∀ value, Tidy C (place value)) : (loaded.into place).Ensures (Tidy C) :=
  ensures_into fun _ _ => h _

/-- The head of a record leaves it tidy. -/
theorem ensures_loadHead (fields : Json.Fields) {r : Record} (h : Tidy C r) :
    (loadHead fields r).Ensures (Tidy C) := by
  unfold loadHead
  -- Only the two steps for titles touch a field that the property is about.
  refine (ensures_done h).andThen ?_ |>.andThen ?_ |>.andThen ?_ |>.andThen ?_
    |>.andThen ?_ |>.andThen ?_ |>.andThen ?_ |>.andThen ?_
  · exact fun r hr => ensures_elsewhere fun _ => ⟨hr.crew, hr.title, hr.image, hr.dates⟩
  · exact fun r hr => ensures_into ((Titles.ensures_load fields hr.title).imp
      fun title htitle => ⟨hr.crew, htitle, hr.image, hr.dates⟩)
  · exact fun r hr => ensures_into ((Titles.ensures_loadLegacy fields hr.title).imp
      fun title htitle => ⟨hr.crew, htitle, hr.image, hr.dates⟩)
  all_goals exact fun r hr => ensures_elsewhere fun _ => ⟨hr.crew, hr.title, hr.image, hr.dates⟩

/-- So does the body, whatever is taken for a remote address, if the empty text
is not. -/
theorem ensures_loadBody (hempty : isRemote "" = false) {fields : Json.Fields}
    (hcrew : ∀ old, C old → (Crew.loadFromRecord fields old).Ensures C) {r : Record}
    (h : Tidy C r) : (loadBody isRemote fields r).Ensures (Tidy C) := by
  unfold loadBody
  refine (ensures_done h).andThen ?_ |>.andThen ?_ |>.andThen ?_ |>.andThen ?_
    |>.andThen ?_ |>.andThen ?_ |>.andThen ?_ |>.andThen ?_ |>.andThen ?_
  · exact fun r hr => ensures_into ((hcrew r.crew hr.crew).imp
      fun crew h => ⟨h, hr.title, hr.image, hr.dates⟩)
  · exact fun r hr => ensures_elsewhere fun _ => ⟨hr.crew, hr.title, hr.image, hr.dates⟩
  · exact fun r hr => ensures_elsewhere fun _ => ⟨hr.crew, hr.title, hr.image, hr.dates⟩
  · exact fun r hr => ensures_into ((ensures_loadField hr.image fun node _ =>
      Artwork.ensures_load hempty r.image node).imp fun image h => ⟨hr.crew, hr.title, h, hr.dates⟩)
  · exact fun r hr => ensures_into ((ensures_loadField hr.dates fun node _ =>
      Dates.ensures_load hr.dates node).imp fun dates h => ⟨hr.crew, hr.title, hr.image, h⟩)
  all_goals exact fun r hr => ensures_elsewhere fun _ => ⟨hr.crew, hr.title, hr.image, hr.dates⟩

/-! ## §3. Repairs. -/

/-- First occurrences are the items that were not seen before. -/
theorem mem_firstOccurrences {seen items : List String} {item : String} :
    item ∈ firstOccurrences seen items ↔ item ∈ items ∧ item ∉ seen := by
  induction items generalizing seen with
  | nil => simp [firstOccurrences]
  | cons head rest ih =>
    rw [firstOccurrences]
    by_cases hseen : seen.contains head = true
    · rw [if_pos hseen, ih]
      have hmem : head ∈ seen := by simpa using hseen
      constructor
      · exact fun h => ⟨List.mem_cons_of_mem _ h.1, h.2⟩
      · rintro ⟨h, hitem⟩
        rcases List.mem_cons.1 h with rfl | h
        · exact absurd hmem hitem
        · exact ⟨h, hitem⟩
    · rw [if_neg hseen, List.mem_cons, ih]
      have hmem : head ∉ seen := by simpa using hseen
      by_cases heq : item = head
      · subst heq
        simp [hmem]
      · simp [heq]

/-- No item is a first occurrence twice. -/
theorem nodup_firstOccurrences (seen items : List String) :
    (firstOccurrences seen items).Nodup := by
  induction items generalizing seen with
  | nil => exact .nil
  | cons head rest ih =>
    rw [firstOccurrences]
    split
    · exact ih seen
    · refine List.nodup_cons.2 ⟨fun h => ?_, ih (head :: seen)⟩
      exact (mem_firstOccurrences.1 h).2 List.mem_cons_self

/-- Items that differ are all kept. -/
theorem firstOccurrences_eq_self {seen items : List String} (hnodup : items.Nodup)
    (hseen : ∀ item ∈ items, item ∉ seen) : firstOccurrences seen items = items := by
  induction items generalizing seen with
  | nil => rfl
  | cons head rest ih =>
    obtain ⟨hhead, hrest⟩ := List.nodup_cons.1 hnodup
    have hfresh : ¬ seen.contains head = true := by
      simpa using hseen head List.mem_cons_self
    rw [firstOccurrences, if_neg hfresh, ih hrest]
    intro item hitem hmem
    rcases List.mem_cons.1 hmem with rfl | hmem
    · exact hhead hitem
    · exact hseen item (List.mem_cons_of_mem _ hitem) hmem

theorem firstOccurrences_sublist (seen items : List String) :
    (firstOccurrences seen items).Sublist items := by
  induction items generalizing seen with
  | nil => exact .slnil
  | cons head rest ih =>
    rw [firstOccurrences]
    split
    · exact .cons head (ih seen)
    · exact .cons_cons head (ih (head :: seen))

/-- A record after the repairs. -/
structure Repaired (C : Crew → Prop) (r : Record) : Prop extends Tidy C r where
  pruned : Titles.Pruned r.title
  tags : r.tags.Nodup

/-- The repair of tags leaves no tag twice. -/
theorem ensures_repairTags {r : Record} (h : Tidy C r) (hpruned : Titles.Pruned r.title) :
    r.repairTags.Ensures (Repaired C) := by
  unfold repairTags
  by_cases hrepeated : r.hasRepeatedTag = true
  · rw [if_pos hrepeated]
    exact ensures_repaired ⟨⟨h.crew, h.title, h.image, h.dates⟩, hpruned,
      nodup_firstOccurrences [] r.tags⟩
  · rw [if_neg hrepeated]
    -- Nothing would be dropped, so the tags are their own first occurrences.
    have hlength : (firstOccurrences [] r.tags).length = r.tags.length := by
      refine Decidable.not_not.1 fun hne => hrepeated ?_
      exact decide_eq_true hne
    have heq := (firstOccurrences_sublist [] r.tags).eq_of_length hlength
    exact ensures_done ⟨h, hpruned, heq ▸ nodup_firstOccurrences [] r.tags⟩

/-- **Tidy records are repaired.** -/
theorem ensures_repair {r : Record} (h : Tidy C r) : r.repair.Ensures (Repaired C) := by
  have htitles : ((Titles.dropUnneededOriginal r.title).into fun title =>
      { r with title }).Ensures fun r => Tidy C r ∧ Titles.Pruned r.title :=
    ensures_into ((Titles.ensures_dropUnneededOriginal h.title).imp
      fun title htitle => ⟨⟨h.crew, htitle.1, h.image, h.dates⟩, htitle.2⟩)
  exact ensures_andThen htitles fun r hr => ensures_repairTags hr.1 hr.2

/-! ## §4. The record of a document. -/

/-- The empty text is no remote address. -/
theorem isRemote_empty : Address.isRemote "" = false := by decide

/-- **What a load of the crew ensures holds of the record's crew**, and the
record is repaired. -/
theorem ensures_ofJsonBy (hempty : isRemote "" = false) (hnobody : C .empty) {node : Json}
    (hcrew : ∀ fields, node = .object fields →
      ∀ old, C old → (Crew.loadFromRecord fields old).Ensures C) :
    (ofJsonBy isRemote node).Ensures (Repaired C) := by
  refine ensures_withFields fun fields hnode => ?_
  have hhead := ensures_loadHead fields (tidy_empty hnobody)
  exact ensures_andThen (hhead.andThen fun r hr => ensures_loadBody hempty (hcrew fields hnode) hr)
    fun r hr => ensures_repair hr

/-- Every record of a document is repaired, and its crew is in normal form. -/
theorem ensures_ofJson_normal (node : Json) : (ofJson node).Ensures (Repaired Crew.Normal) :=
  ensures_ofJsonBy isRemote_empty Crew.normal_empty
    fun fields _ _ hold => Crew.ensures_loadFromRecord fields hold

end Record

end FilmCatalog
