/-
  FilmCatalog.Proofs.Record.Storing
  ─────────────────────────────────
  **STORED FIELDS OF A RECORD.**

  Dates, markers and titles are loaded again as they were.  A date has to lie
  in the calendar, and a title has to be in normal form; both hold of what is
  loaded.
-/
import FilmCatalog.Proofs.Crew.Storing
import FilmCatalog.Proofs.Record.Loading

namespace FilmCatalog

open Loaded

/-! ## §1. Scalars. -/

/-- A natural is loaded again. -/
theorem loadUInt32_store (n old : UInt32) : loadUInt32 old (storeUInt32 n) = done n .unchanged := by
  have hsmall : n.toNat < 4294967296 := n.toNat_lt
  have hword : (Json.ofInt n.toNat).toWord? = some n.toNat := by
    have hmax : (n.toNat : Int) ≤ Json.maxWord := by
      unfold Json.maxWord
      omega
    exact if_pos ⟨Int.natCast_nonneg _, hmax⟩
  refine loadScalar_of_read ?_ old
  unfold storeUInt32 Json.toUInt32?
  rw [hword, Option.bind_some, if_pos hsmall, UInt32.ofNat_toNat]

theorem loadText_store (text old : String) :
    loadText old (.string text) = done text .unchanged := rfl

/-- A list of texts is loaded again. -/
theorem rereads_storeTexts (texts : List String) : Rereads loadTexts [] (storeTexts texts) texts :=
  rereads_storeList_self fun text _ => loadText_store text ""

/-- An optional natural among other fields. -/
theorem quiet_loadUInt32 {parts : List (String × Json)} (hkeys : (parts.map (·.1)).Nodup)
    {key : String} {value : Option UInt32}
    (hget : Entries.get? key parts = some (storeOptional storeUInt32 value)) (old : Option UInt32) :
    (loadOptional loadUInt32 0 (storedObject parts) key old).Quiet value :=
  quiet_loadOptional_self hkeys hget (fun n _ => ⟨rfl, loadUInt32_store n 0⟩) old

/-- An optional text among other fields. -/
theorem quiet_loadText {parts : List (String × Json)} (hkeys : (parts.map (·.1)).Nodup)
    {key : String} {value : Option String}
    (hget : Entries.get? key parts = some (storeOptional .string value)) (old : Option String) :
    (loadOptional loadText "" (storedObject parts) key old).Quiet value :=
  quiet_loadOptional_self hkeys hget (fun text _ => ⟨rfl, loadText_store text ""⟩) old

/-! ## §2. Dates. -/

namespace Dates

/-- The seconds of the calendar fit 64 bits. -/
theorem toInt?_second {second : Int} (h : Calendar.hasSecond second = true) :
    (Json.ofInt second).toInt? = some second := by
  have hfirst : (-9223372036854775808 : Int) ≤ Calendar.firstSecond := by decide
  have hlast : Calendar.lastSecond < (9223372036854775808 : Int) := by decide
  simp only [Calendar.hasSecond, Bool.and_eq_true, decide_eq_true_eq] at h
  exact Json.toInt?_ofInt ⟨Int.le_trans hfirst h.1, Int.lt_of_le_of_lt h.2 hlast⟩

/-- A second of the calendar is loaded again. -/
theorem loadSecond_store {second : Int} (h : Calendar.hasSecond second = true) (old : Int) :
    loadSecond old (.ofInt second) = done second .unchanged := by
  refine loadScalar_of_read ?_ old
  rw [toInt?_second h, Option.bind_some, if_pos h]

/-- The dates with their keys. -/
def parts (d : Dates) : List (String × Json) :=
  [ ("published", storeOptional .ofInt d.published),
    ("stream", storeOptional .ofInt d.stream),
    ("poster", storeOptional .ofInt d.poster) ]

theorem nodup_parts (d : Dates) : (d.parts.map (·.1)).Nodup := by
  show ["published", "stream", "poster"].Nodup
  decide

/-- Dates in the calendar are loaded again. -/
theorem rereads_store {d : Dates} (h : d.InCalendar) : Rereads load none d.store d := by
  have hdate : ∀ key (date : Option Int), Entries.get? key d.parts = some (storeOptional .ofInt date) →
      (∀ second ∈ date, Calendar.hasSecond second = true) →
      ∀ old, (loadOptional loadSecond 0 (storedObject d.parts) key old).Quiet date :=
    fun key date hget hin => quiet_loadOptional_self d.nodup_parts hget fun second hsecond =>
      ⟨rfl, loadSecond_store (hin second hsecond) 0⟩
  refine rereads_storeFields (quiet_absent none) ?_
  have hpublished := hdate "published" d.published rfl h.published .none
  have hstream := hdate "stream" d.stream rfl h.stream .none
  have hposter := hdate "poster" d.poster rfl h.poster .none
  refine Quiet.andThen (a := Dates.mk d.published d.stream .none) ?_ (hposter.into _)
  refine Quiet.andThen (a := Dates.mk d.published .none .none) ?_ (hstream.into _)
  exact (quiet_absent none).andThen (hpublished.into _)

end Dates

/-! ## §3. Markers. -/

theorem MarkerKind.load_store (kind old : MarkerKind) :
    load old kind.store = done kind .unchanged := by
  cases kind <;> rfl

namespace Marker

/-- What a marker says, with its keys. -/
def parts (m : Marker) : List (String × Json) :=
  [ ("type", m.kind.store),
    ("start", storeUInt32 m.start),
    ("stop", storeOptional storeUInt32 m.stop),
    ("comment", storeOptional .string m.comment) ]

theorem nodup_parts (m : Marker) : (m.parts.map (·.1)).Nodup := by
  show ["type", "start", "stop", "comment"].Nodup
  decide

/-- A marker is loaded again, whatever was held before. -/
theorem load_store (m old : Marker) : load old m.store = done m .unchanged := by
  have hkind : loadField MarkerKind.load (storedObject m.parts) "type" .bookmark
      = done m.kind .unchanged := by
    rw [loadField_storedObject m.nodup_parts rfl, MarkerKind.load_store]
    rfl
  have hstart : (loadField loadUInt32 (storedObject m.parts) "start" 0).Quiet m.start :=
    quiet_loadField m.nodup_parts rfl
      (rereads_present rfl (loadUInt32_store m.start 0 ▸ quiet_unchanged m.start))
  have hstop : (loadOptional loadUInt32 0 (storedObject m.parts) "stop" none).Quiet m.stop :=
    quiet_loadUInt32 m.nodup_parts rfl none
  have hcomment : (loadOptional loadText "" (storedObject m.parts) "comment" none).Quiet m.comment :=
    quiet_loadText m.nodup_parts rfl none
  have hobject : load old (.object (storedObject m.parts)) = done m .unchanged := by
    unfold load withFields
    refine andThen_quiet (a := Marker.mk m.kind m.start m.stop none) ?_ (hcomment.into _)
    refine andThen_quiet (a := Marker.mk m.kind m.start none none) ?_ (hstop.into _)
    refine andThen_quiet (a := Marker.mk m.kind 0 none none) ?_ (hstart.into _)
    show (done blank .absent).andThen _ = done _ (Outcome.absorb .absent .unchanged)
    exact andThen_done rfl (into_done hkind _)
  rcases storeFields_eq m.parts with ⟨_, hnothing⟩ | hstore
  · -- An object without fields would have no kind.
    rw [hnothing] at hkind
    cases congrArg Loaded.result hkind
  · show load old (storeFields m.parts) = _
    rw [hstore, hobject]

end Marker

namespace Playback

/-- What is known of a video, with its keys. -/
def parts (p : Playback) : List (String × Json) :=
  [ ("credits", storeOptional storeUInt32 p.credits),
    ("end_of_watch", storeOptional storeUInt32 p.endOfWatch),
    ("markers", storeList Marker.store p.markers) ]

theorem nodup_parts (p : Playback) : (p.parts.map (·.1)).Nodup := by
  show ["credits", "end_of_watch", "markers"].Nodup
  decide

/-- The playback of a film is loaded again. -/
theorem rereads_store (p : Playback) : Rereads load unknown p.store p := by
  have hcredits : (loadOptional loadUInt32 0 (storedObject p.parts) "credits" none).Quiet p.credits :=
    quiet_loadUInt32 p.nodup_parts rfl none
  have hendOfWatch : (loadOptional loadUInt32 0 (storedObject p.parts) "end_of_watch" none).Quiet
      p.endOfWatch := quiet_loadUInt32 p.nodup_parts rfl none
  have hmarkers : (loadField (loadList Marker.load .blank) (storedObject p.parts) "markers" []).Quiet
      p.markers :=
    quiet_loadField p.nodup_parts rfl (rereads_storeList_self fun marker _ => marker.load_store _)
  refine rereads_storeFields (quiet_absent unknown) ?_
  refine Quiet.andThen (a := Playback.mk p.credits p.endOfWatch []) ?_ (hmarkers.into _)
  refine Quiet.andThen (a := Playback.mk p.credits none []) ?_ (hendOfWatch.into _)
  exact (quiet_absent unknown).andThen (hcredits.into _)

end Playback

/-! ## §4. Titles. -/

namespace Title

/-- What a title says, with its keys. -/
def parts (t : Title) : List (String × Json) :=
  [ ("text", .string t.text),
    ("sort", storeOptional .string t.sort),
    ("original", if t.original then .bool true else .null) ]

theorem nodup_parts (t : Title) : (t.parts.map (·.1)).Nodup := by
  show ["text", "sort", "original"].Nodup
  decide

/-- No stored title is a pair of titles in the old layout. -/
theorem isLegacy_storedObject (t : Title) : isLegacy (storedObject t.parts) = false := by
  unfold isLegacy Json.Fields.contains
  rw [get?_storedObject t.nodup_parts, get?_storedObject t.nodup_parts]
  rfl

/-- A title with neither a sort title nor a mark is stored as its text, and
others as an object. -/
theorem store_eq (t : Title) :
    t.store = .string t.text ∧ t.sort = none ∧ t.original = false ∨
      t.store = .object (storedObject t.parts) := by
  unfold store
  by_cases h : t.sort = none ∧ t.original = false
  · exact .inl ⟨if_pos h, h⟩
  · rw [if_neg h]
    rcases storeFields_eq t.parts with ⟨_, hnothing⟩ | hstore
    · -- The text is always there.
      have htext := get?_storedObject t.nodup_parts "text"
      rw [hnothing] at htext
      cases htext
    · exact .inr hstore

/-- The fields of a normal title are loaded again. -/
theorem loadFields_stored {t : Title} (h : t.Normal) :
    loadFields (storedObject t.parts) default t.text = done t .unchanged := by
  have hsort : (loadOptional loadText "" (storedObject t.parts) "sort" none).Quiet t.sort :=
    quiet_loadText t.nodup_parts rfl none
  have horiginal : (loadField loadBool (storedObject t.parts) "original" false).Quiet t.original := by
    refine quiet_loadField t.nodup_parts rfl ?_
    cases t.original with
    | false => exact rereads_nothing _ false
    | true => exact rereads_present rfl (quiet_unchanged true)
  unfold loadFields
  refine andThen_quiet (a := t) ?_ (normalize_of_normal h ▸ quiet_unchanged t)
  refine andThen_quiet (a := Title.mk t.text t.sort false) ?_ (horiginal.into _).withoutOutcome
  exact andThen_quiet rfl (hsort.into _)

/-- **A title in normal form is loaded again as it was.** -/
theorem load_store {t : Title} (h : t.Normal) :
    t.store.isNull = false ∧ load default t.store = done t .unchanged := by
  rcases t.store_eq with ⟨hstore, hsort, horiginal⟩ | hstore
  · have hplain : plain t.text = t := by
      unfold plain
      rw [← hsort, ← horiginal]
    rw [hstore]
    refine ⟨rfl, ?_⟩
    show (plain t.text).normalize = _
    rw [hplain, normalize_of_normal h]
  · rw [hstore]
    refine ⟨rfl, ?_⟩
    have htext : loadOptional loadText "" (storedObject t.parts) "text" none
        = done (some t.text) .unchanged := by
      unfold loadOptional
      rw [loadField_storedObject t.nodup_parts rfl]
      rfl
    unfold load
    simp only [isLegacy_storedObject, htext]
    exact loadFields_stored h

end Title

namespace Titles

/-- Stored titles are never taken for titles of the old layout. -/
theorem loadLegacy_stored {fields : Json.Fields}
    (h : ∀ node, fields.get? "title" = some node → ∃ title : Title, node = title.store)
    (old : Titles) : loadLegacy fields old = done old .absent := by
  unfold loadLegacy
  split
  · rename_i legacy hlegacy
    obtain ⟨title, htitle⟩ := h _ hlegacy
    rcases title.store_eq with ⟨hstore, _⟩ | hstore
    · rw [hstore] at htitle
      cases htitle
    · rw [hstore] at htitle
      cases htitle
      rw [title.isLegacy_storedObject]
      rfl
  · rfl

/-- Of pruned titles none is dropped. -/
theorem dropUnneededOriginal_of_pruned {titles : Titles} (h : Pruned titles) :
    dropUnneededOriginal titles = done titles .unchanged := by
  unfold dropUnneededOriginal
  rw [h]
  rfl

end Titles

end FilmCatalog
