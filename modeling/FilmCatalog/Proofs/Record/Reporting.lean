/-
  FilmCatalog.Proofs.Record.Reporting
  ───────────────────────────────────
  **WHERE A LOAD FAILS.**

  A document is refused with an error whose keys should lead to its cause.  All
  loaders but those of people and crews see to that (`Tells`), so the keys of
  an error lead to its cause unless it is one of the two errors of a crew that
  go astray:

      {"crew": {"cast": ["ripley"]}, "people": 5}     crew.people   instead of  people
      {"crew": {"names": [["Dan", 7]]}}               crew.names.0  instead of  crew.names.0.1

  These two are the only ones, for every document.
-/
import FilmCatalog.Proofs.Crew.Reporting
import FilmCatalog.Record.Load

namespace FilmCatalog

open Loaded LoadError

variable {P : LoadError → Prop}

/-! ## §1. Titles. -/

/-- A scalar leaves no notes. -/
theorem notes_loadField_scalar {α : Type} (expected : String) (read : Json → Option α)
    (fields : Json.Fields) (key : String) (old : α) :
    (loadField (loadScalar expected read) fields key old).notes = [] := by
  unfold loadField
  split
  · rfl
  · rfl
  · unfold loadScalar
    split <;> rfl

namespace Title

/-- Tidying a title notes what it updates, and never fails. -/
theorem candid_normalize (t : Title) : t.normalize.Candid P := by
  simp only [normalize]
  generalize (if t.text = "" then t.sort.getD "" else t.text) = text
  split
  · exact candid_done _ Outcome.noConfusion
  · split
    · exact candid_repaired _ _
    · exact candid_done _ Outcome.noConfusion

/-- The errors of a title that is an object point into its fields. -/
theorem candid_loadFields (fields : Json.Fields) (old : Title) (text : String) :
    (loadFields fields old text).Candid fun error => error.Points (.object fields) := by
  have hbool : Tells loadBool := tells_loadScalar _ _
  unfold loadFields
  refine (candid_done _ Outcome.noConfusion).andThen (fun t => ?_) |>.andThen (fun t => ?_)
    |>.andThen candid_normalize
  · exact (tells_loadText.optional "" fields "sort" t.sort).into _
  · exact ((hbool.field fields "original" false).into _).withoutOutcome
      (notes_loadField_scalar _ _ fields "original" false)

theorem tells_load : Tells load := by
  intro old node
  unfold load
  split
  · exact candid_normalize _
  · rename_i fields
    split
    · exact candid_done old Outcome.noConfusion
    · have htext := tells_loadText.optional "" fields "text" none
      simp only
      split
      · exact htext.into _
      · exact candid_done old Outcome.noConfusion
      · exact candid_loadFields fields old _
  · exact candid_failed old (points_unexpected _ node)

end Title

namespace Titles

/-- Titles of the old layout stand in an object of the record, where their
errors lead. -/
theorem candid_loadLegacyFields {record legacy : Json.Fields}
    (h : record.get? "title" = some (.object legacy)) (titles : Titles) :
    (loadLegacyFields legacy titles).Candid fun error => error.Points (.object record) := by
  have htext : ∀ key, ((loadOptional loadText "" legacy key none).under "title").Candid
      fun error => error.Points (.object record) := fun key =>
    candid_under ((tells_loadText.optional "" legacy key none).imp fun _ herror => herror.field h)
  simp only [loadLegacyFields]
  split
  · rename_i error hlocal
    exact candid_failed titles ((htext "local").refused error hlocal)
  · rename_i error horiginal _
    exact candid_failed titles ((htext "orig").refused error horiginal)
  · exact candid_repaired _ _

/-- Titles in another layout are none of the old one, and there is nothing to
report. -/
theorem candid_loadLegacy (record : Json.Fields) (titles : Titles) :
    (loadLegacy record titles).Candid fun error => error.Points (.object record) := by
  unfold loadLegacy
  split
  · rename_i legacy hlegacy
    split
    · exact candid_loadLegacyFields hlegacy titles
    · exact candid_done titles Outcome.noConfusion
  · exact candid_done titles Outcome.noConfusion

/-- A superfluous original title is dropped with a note. -/
theorem candid_dropUnneededOriginal (titles : Titles) :
    (dropUnneededOriginal titles).Candid P := by
  unfold dropUnneededOriginal
  split
  · exact candid_repaired _ _
  · exact candid_done titles Outcome.noConfusion

end Titles

/-! ## §2. Images, dates and videos. -/

theorem Image.tells_load (isRemote : String → Bool) : Tells (Image.load isRemote) :=
  tells_loadScalar _ _

theorem PosterSet.tells_load (isRemote : String → Bool) : Tells (PosterSet.load isRemote) := by
  have himage := Image.tells_load isRemote
  refine tells_withFields fun old fields => ?_
  exact (candid_done old Outcome.noConfusion)
    |>.andThen (fun p => (himage.optional default fields "small" p.small).into _)
    |>.andThen (fun p => (himage.optional default fields "normal" p.normal).into _)
    |>.andThen (fun p => (himage.optional default fields "large" p.large).into _)

theorem Artwork.tells_load (isRemote : String → Bool) : Tells (Artwork.load isRemote) := by
  have himage := Image.tells_load isRemote
  have hposters := PosterSet.tells_load isRemote
  refine tells_withFields fun old fields => ?_
  exact (candid_done none Outcome.noConfusion)
    |>.andThen (fun a => (himage.languages default fields "highlight" a.highlight).into _)
    |>.andThen (fun a => (hposters.languages default fields "poster" a.poster).into _)
    |>.andThen (fun a => ((himage.list default).field fields "gallery" a.gallery).into _)

theorem Dates.tells_load : Tells Dates.load := by
  have hsecond : Tells loadSecond := tells_loadScalar _ _
  refine tells_withFields fun old fields => ?_
  exact (candid_done old Outcome.noConfusion)
    |>.andThen (fun d => (hsecond.optional 0 fields "published" d.published).into _)
    |>.andThen (fun d => (hsecond.optional 0 fields "stream" d.stream).into _)
    |>.andThen (fun d => (hsecond.optional 0 fields "poster" d.poster).into _)

theorem MarkerKind.tells_load : Tells MarkerKind.load := by
  intro old node
  unfold load
  split
  · split
    · exact candid_done _ Outcome.noConfusion
    · exact candid_failed old (points_unknownName _ _ _)
  · split
    · exact candid_repaired _ _
    · exact candid_failed old (points_unknownName _ _ _)
  · exact candid_failed old (points_unexpected _ node)

theorem Marker.tells_load : Tells Marker.load := by
  refine tells_withFields fun old fields => ?_
  exact (candid_done blank Outcome.noConfusion)
    |>.andThen (fun m => (MarkerKind.tells_load.field fields "type" m.kind).into _)
    |>.andThen (fun m => (tells_loadUInt32.field fields "start" m.start).into _)
    |>.andThen (fun m => (tells_loadUInt32.optional 0 fields "stop" m.stop).into _)
    |>.andThen (fun m => (tells_loadText.optional "" fields "comment" m.comment).into _)

theorem Playback.tells_load : Tells Playback.load := by
  refine tells_withFields fun old fields => ?_
  exact (candid_done old Outcome.noConfusion)
    |>.andThen (fun p => (tells_loadUInt32.optional 0 fields "credits" p.credits).into _)
    |>.andThen (fun p => (tells_loadUInt32.optional 0 fields "end_of_watch" p.endOfWatch).into _)
    |>.andThen (fun p => ((Marker.tells_load.list .blank).field fields "markers" []).into _)

/-! ## §3. Records. -/

/-- The errors of texts, or of a single text in their place, point into the
fields. -/
theorem candid_loadTextsOrText (fields : Json.Fields) (key : String) (old : List String) :
    (loadTextsOrText fields key old).Candid fun error => error.Points (.object fields) := by
  unfold loadTextsOrText
  split
  · split
    · exact candid_repaired _ _
    · exact candid_done _ Outcome.noConfusion
  · exact tells_loadTexts.field fields key old

namespace Record

/-- The errors of the head of a record point into its fields. -/
theorem candid_loadHead (fields : Json.Fields) (r : Record) :
    (loadHead fields r).Candid fun error => error.Points (.object fields) := by
  unfold loadHead
  exact (candid_done r Outcome.noConfusion)
    |>.andThen (fun r => (tells_loadTexts.field fields "refs" r.refs).into _)
    |>.andThen (fun r => (Title.tells_load.languages default fields "title" r.title).into _)
    |>.andThen (fun r => (Titles.candid_loadLegacy fields r.title).into _)
    |>.andThen (fun r => (tells_loadTexts.field fields "genres" r.genres).into _)
    |>.andThen (fun r => (tells_loadTexts.field fields "countries" r.countries).into _)
    |>.andThen (fun r => (candid_loadTextsOrText fields "age" r.age).into _)
    |>.andThen (fun r => (tells_loadTexts.field fields "tags" r.tags).into _)
    |>.andThen (fun r => (tells_loadTexts.field fields "episodes" r.episodes).into _)

/-- Behind the crew all loaders tell. -/
theorem candid_loadBody (isRemote : String → Bool) (fields : Json.Fields) (r : Record) :
    (loadBody isRemote fields r).Candid fun error => error.Placed (.object fields) := by
  have hplaced : ∀ {α : Type} {loaded : Loaded α} {place : α → Record},
      (loaded.Candid fun error => error.Points (.object fields)) →
      (loaded.into place).Candid fun error => error.Placed (.object fields) :=
    fun h => (h.imp fun _ => .inl).into _
  unfold loadBody
  exact (candid_done r Outcome.noConfusion)
    |>.andThen (fun r => (Crew.candid_loadFromRecord fields r.crew).into _)
    |>.andThen (fun r => hplaced (tells_loadText.languages "" fields "tagline" r.tagline))
    |>.andThen (fun r => hplaced (tells_loadText.languages "" fields "summary" r.summary))
    |>.andThen (fun r => hplaced ((Artwork.tells_load isRemote).field fields "image" r.image))
    |>.andThen (fun r => hplaced (Dates.tells_load.field fields "dates" r.dates))
    |>.andThen (fun r => hplaced (tells_loadUInt32.optional 0 fields "year" r.year))
    |>.andThen (fun r => hplaced (tells_loadUInt32.optional 0 fields "runtime" r.runtime))
    |>.andThen (fun r => hplaced (tells_loadUInt32.optional 0 fields "rating" r.rating))
    |>.andThen (fun r => hplaced (Playback.tells_load.field fields "video" r.video))

/-- The repairs note what they update, and never fail. -/
theorem candid_repair (r : Record) : r.repair.Candid P := by
  refine ((Titles.candid_dropUnneededOriginal r.title).into _).andThen fun r => ?_
  unfold repairTags
  split
  · exact candid_repaired _ _
  · exact candid_done r Outcome.noConfusion

/-- **A record tells of itself**, whatever the document. -/
theorem candid_ofJson (document : Json) :
    (ofJson document).Candid fun error => error.Placed document := by
  refine candid_withFields (.inl (points_unexpected "object" document)) ?_
  rintro fields rfl
  exact ((candid_loadHead fields empty).imp fun _ => .inl).andThen (candid_loadBody _ fields)
    |>.andThen candid_repair

/-! ## §4. Where errors lead. -/

/-- An error leads to a part of the document unless it concerns the people of
the old layout. -/
theorem exists_of_placed {error : LoadError} {document : Json} (h : error.Placed document)
    (hkeys : error.keys ≠ ["crew", "people"]) :
    ∃ target, document.follow? error.keys = some target := by
  rcases h with ⟨target, htarget, _⟩ | ⟨_, _, rfl, _⟩ | ⟨_, items, _, hitems, _⟩
  · exact ⟨target, htarget⟩
  · exact absurd rfl hkeys
  · exact ⟨.array items, hitems⟩

/-- **Where a refused document is at fault.**  The keys of the error lead to a
node of the document, unless they are `crew` and `people`.  They lead to the
cause, with the kind that the error reports, unless the names of an old crew
were looked for in the crew, or a person was blamed for the kind of an item. -/
theorem points_iff {document : Json} {error : LoadError}
    (h : (ofJson document).result = .error error) :
    (error.keys ≠ ["crew", "people"] → ∃ target, document.follow? error.keys = some target) ∧
    (error.Points document ↔
      ¬ (error.PeopleAstray document ∨ error.PersonAstray ["crew", "names"] document)) := by
  have hplaced := (candid_ofJson document).refused error h
  refine ⟨exists_of_placed hplaced, fun hpoints => ?_, hplaced.resolve_right⟩
  exact not_or.2 ⟨hpoints.not_peopleAstray, hpoints.not_personAstray _⟩

/-- A marker that starts at no second. -/
def timelessMarker : Json :=
  .object [("video", .object [("markers", .array [.object [("start", .string "soon")]])])]

theorem points_timelessMarker :
    ∃ error, (ofJson timelessMarker).result = .error error ∧
      error.path = "video.markers.0.start" ∧ error.Points timelessMarker := by
  have h : (ofJson timelessMarker).result = .error (.field "video" (.field "markers"
      (.field "0" (.field "start" (.shape "unsigned integer" .string))))) := by decide +kernel
  refine ⟨_, h, by decide +kernel, (points_iff h).2.2 ?_⟩
  rintro (⟨people, _, herror, _⟩ | ⟨⟨index, hkeys⟩, _⟩)
  · simp at herror
  · simp [keys] at hkeys

/-- The names of an old crew are no object. -/
def unnamedPeople : Json :=
  .object [("crew", .object [("cast", .array [.string "ripley"])]), ("people", .ofInt 5)]

/-- A reference of a person is a number. -/
def numberedPerson : Json :=
  .object [("crew", .object [("names", .array [.array [.string "Dan O'Bannon", .ofInt 7]])])]

/-- **Two errors do not point at their cause**: one has keys that lead nowhere,
and one reports a number where its keys lead to a list. -/
theorem crew_errors_astray :
    (∃ error, (ofJson unnamedPeople).result = .error error ∧ error.path = "crew.people" ∧
      unnamedPeople.follow? error.keys = none) ∧
    (∃ error, (ofJson numberedPerson).result = .error error ∧ error.path = "crew.names.0" ∧
      error.root = .shape Person.expected .number ∧ ¬ error.Points numberedPerson) := by
  have hpeople : (ofJson unnamedPeople).result
      = .error (.field "crew" (.field "people" (.shape "object" .number))) := by decide +kernel
  have hperson : (ofJson numberedPerson).result = .error (.field "crew" (.field "names"
      (.field "0" (.shape Person.expected .number)))) := by decide +kernel
  refine ⟨⟨_, hpeople, by decide +kernel, rfl⟩, ⟨_, hperson, by decide +kernel, rfl, ?_⟩⟩
  rintro ⟨target, htarget, hkind⟩
  -- The keys lead to the whole person.
  cases htarget
  exact Json.Kind.noConfusion (hkind _ _ rfl)

end Record

end FilmCatalog
