/-
  FilmCatalog.Proofs.Record.Outcome
  ─────────────────────────────────
  **WHEN A MERGE OF RECORDS TELLS WHAT IT DID.**

  Every field but the titles is merged exactly, so the outcome of a merge is
  as exact as the one of the titles: it tells whether the record changed, but
  for an original title that is driven out and comes back in the same merge.
-/
import FilmCatalog.Proofs.Record.NormalForm
import FilmCatalog.Proofs.Titles.Outcome

namespace FilmCatalog

open Merged

/-! ## §1. Fields that are merged exactly. -/

theorem Dates.exact_merge (stored incoming : Dates) : Exact stored (stored.merge incoming) :=
  exact_three Dates.mk (fun _ _ _ => by rw [Dates.mk.injEq])
    (exact_optional stored.published incoming.published)
    (exact_optional stored.stream incoming.stream)
    (exact_optional stored.poster incoming.poster)

theorem Playback.exact_merge (stored incoming : Playback) :
    Exact stored (stored.merge incoming) :=
  exact_three Playback.mk (fun _ _ _ => by rw [Playback.mk.injEq])
    (exact_optional stored.credits incoming.credits)
    (exact_optional stored.endOfWatch incoming.endOfWatch)
    (WeaveRule.markers.exact_merge stored.markers incoming.markers)

namespace Record

/-- Two records are equal if all their fields are. -/
theorem eq_iff {a b : Record} :
    a = b ↔ a.refs = b.refs ∧ a.title = b.title ∧ a.genres = b.genres ∧ a.countries = b.countries ∧
      a.age = b.age ∧ a.tags = b.tags ∧ a.episodes = b.episodes ∧ a.crew = b.crew ∧
      a.tagline = b.tagline ∧ a.summary = b.summary ∧ a.image = b.image ∧ a.dates = b.dates ∧
      a.year = b.year ∧ a.runtime = b.runtime ∧ a.rating = b.rating ∧ a.video = b.video := by
  cases a
  cases b
  rw [Record.mk.injEq]

/-! ## §2. The outcome of a merge. -/

/-- The outcomes of all fields. -/
def fieldOutcomes (prefs : Preferences) (stored incoming : Record) (crew : Merged Crew) :
    List Outcome :=
  [ (WeaveRule.texts.merge stored.refs incoming.refs).outcome,
    (Titles.merge prefs.title stored.title incoming.title).outcome,
    (WeaveRule.texts.merge stored.genres incoming.genres).outcome,
    (WeaveRule.texts.merge stored.countries incoming.countries).outcome,
    (WeaveRule.texts.merge stored.age incoming.age).outcome,
    (mergeTags stored.tags incoming.tags).outcome,
    (WeaveRule.texts.merge stored.episodes incoming.episodes).outcome,
    crew.outcome,
    (Merged.texts stored.tagline incoming.tagline).outcome,
    (Merged.texts stored.summary incoming.summary).outcome,
    (stored.image.merge incoming.image).outcome,
    (stored.dates.merge incoming.dates).outcome,
    (preferred prefs.details stored.year incoming.year).outcome,
    (preferred prefs.details stored.runtime incoming.runtime).outcome,
    (preferred prefs.details stored.rating incoming.rating).outcome,
    (stored.video.merge incoming.video).outcome ]

theorem outcome_mergeWith_eq (prefs : Preferences) (stored incoming : Record)
    (crew : Merged Crew) :
    (mergeWith prefs stored incoming crew).outcome
      = (fieldOutcomes prefs stored incoming crew).foldl Outcome.absorb .unchanged := rfl

/-- **The outcome tells whether the record changed**, unless the original title
was driven out and came back. -/
theorem outcome_mergeWith (prefs : Preferences) {stored incoming : Record}
    (hstored : stored.Normal) (hincoming : incoming.Normal) (crew : Crew) :
    (mergeWith prefs stored incoming (.replace stored.crew crew)).outcome ≠ .absent ∧
    ((mergeWith prefs stored incoming (.replace stored.crew crew)).outcome = .unchanged ↔
      (mergeWith prefs stored incoming (.replace stored.crew crew)).record = stored ∧
        ¬ (prefs.title = .theirs ∧ Titles.ComesBack stored.title incoming.title)) := by
  have htexts := WeaveRule.texts.exact_merge
  have htitle := Titles.outcome_merge prefs.title hstored.title incoming.title
  have htags : Exact stored.tags (mergeTags stored.tags incoming.tags) := by
    rw [mergeTags_eq hstored.tags hincoming.tags]
    exact htexts stored.tags incoming.tags
  have hcrew := exact_replace stored.crew crew
  have himage : Exact stored.image (stored.image.merge incoming.image) := exact_replace _ _
  have hdates := stored.dates.exact_merge incoming.dates
  have hdetails := fun mine theirs : Option UInt32 => exact_preferred prefs.details mine theirs
  have hvideo := stored.video.exact_merge incoming.video
  -- No field is silent, so the whole is unchanged exactly if each field is.
  have hpresent : ∀ outcome ∈ fieldOutcomes prefs stored incoming (.replace stored.crew crew),
      outcome ≠ .absent := by
    simp only [fieldOutcomes, List.forall_mem_cons]
    exact ⟨(htexts _ _).ne_absent, htitle.1, (htexts _ _).ne_absent, (htexts _ _).ne_absent,
      (htexts _ _).ne_absent, htags.ne_absent, (htexts _ _).ne_absent, hcrew.ne_absent,
      (exact_texts _ _).ne_absent, (exact_texts _ _).ne_absent, himage.ne_absent, hdates.ne_absent,
      (hdetails _ _).ne_absent, (hdetails _ _).ne_absent, (hdetails _ _).ne_absent,
      hvideo.ne_absent, by simp⟩
  obtain ⟨hnotAbsent, hunchanged⟩ := Outcome.foldl_absorb hpresent .unchanged (by simp)
  rw [outcome_mergeWith_eq]
  refine ⟨hnotAbsent, hunchanged.trans ?_⟩
  simp only [fieldOutcomes, List.forall_mem_cons, List.not_mem_nil, false_implies, implies_true,
    true_and, and_true]
  rw [(htexts stored.refs incoming.refs).unchanged_iff, htitle.2,
    (htexts stored.genres incoming.genres).unchanged_iff,
    (htexts stored.countries incoming.countries).unchanged_iff,
    (htexts stored.age incoming.age).unchanged_iff, htags.unchanged_iff,
    (htexts stored.episodes incoming.episodes).unchanged_iff, hcrew.unchanged_iff,
    (exact_texts stored.tagline incoming.tagline).unchanged_iff,
    (exact_texts stored.summary incoming.summary).unchanged_iff, himage.unchanged_iff,
    hdates.unchanged_iff, (hdetails stored.year incoming.year).unchanged_iff,
    (hdetails stored.runtime incoming.runtime).unchanged_iff,
    (hdetails stored.rating incoming.rating).unchanged_iff, hvideo.unchanged_iff, eq_iff]
  exact ⟨fun h => ⟨⟨h.1, h.2.1.1, h.2.2⟩, h.2.1.2⟩, fun h => ⟨h.1.1, ⟨h.1.2.1, h.2⟩, h.1.2.2⟩⟩

/-- **What the outcome of a merge says.**  Records of documents can be merged.
The outcome is an update if the record changed, or if its original title was
driven out by one in an earlier language and came back; else it says that
nothing changed. -/
theorem outcome_merge_loaded (node other : Json) (outcome after : Outcome) (prefs : Preferences)
    (hnode : (ofJson node).result = .ok outcome) (hother : (ofJson other).result = .ok after) :
    ∃ merged, merge prefs (ofJson node).value (ofJson other).value = .ok merged ∧
      (merged.outcome = .updated ↔ merged.record ≠ (ofJson node).value ∨
        prefs.title = .theirs ∧
          Titles.ComesBack (ofJson node).value.title (ofJson other).value.title) ∧
      (merged.outcome = .unchanged ↔ merged.record = (ofJson node).value ∧
        ¬ (prefs.title = .theirs ∧
          Titles.ComesBack (ofJson node).value.title (ofJson other).value.title)) := by
  have hstored := (ensures_ofJson_normal node outcome hnode).normal
  have hincoming := (ensures_ofJson_normal other after hother).normal
  obtain ⟨crew, _, hcrew⟩ := Crew.exists_merge_normal hstored.crew hincoming.crew
  obtain ⟨hpresent, hunchanged⟩ := outcome_mergeWith prefs hstored hincoming crew
  refine ⟨_, merge_of_crew hcrew prefs, ?_, hunchanged⟩
  have hupdated : ∀ o : Outcome, o ≠ .absent → (o = .updated ↔ ¬ o = .unchanged) := by
    intro o ho
    cases o <;> simp_all
  rw [hupdated _ hpresent, hunchanged, Classical.not_and_iff_not_or_not, Classical.not_not]

/-- One original title, in Czech. -/
def czechDocument : Json :=
  .object [("title:cs", .object [("original", .bool true), ("text", .string "Samotáři")])]

/-- The same title, next to another original one in a language before it. -/
def arabicAndCzechDocument : Json :=
  .object [
    ("title:ar", .object [("original", .bool true), ("text", .string "Loners")]),
    ("title:cs", .object [("original", .bool true), ("text", .string "Samotáři")])]

theorem comesBack_czech : Titles.ComesBack (ofJson czechDocument).value.title
    (ofJson arabicAndCzechDocument).value.title := by
  refine ⟨"cs", ⟨"Samotáři", none, true⟩, by decide +kernel, by decide +kernel, by decide +kernel,
    fun tag found hfound => ?_, "ar", ⟨"Loners", none, true⟩, by decide +kernel, by decide +kernel⟩
  have hentries : (ofJson arabicAndCzechDocument).value.title.entries
      = [("ar", ⟨"Loners", none, true⟩), ("cs", ⟨"Samotáři", none, true⟩)] := by decide +kernel
  have hentry := SortedMap.mem_entries_iff.2 hfound
  rw [hentries] at hentry
  rcases List.mem_cons.1 hentry with heq | hentry
  · cases heq
    exact .inr ⟨by decide +kernel, rfl, by decide⟩
  · cases List.mem_singleton.1 hentry
    exact .inl ⟨⟨"Samotáři", none, true⟩, by decide +kernel, by decide +kernel⟩

/-- The Arabic title drives out the Czech one, which comes back, and so the
outcome is an update. -/
theorem outcome_merge_czech :
    (ofJson czechDocument).result = .ok .unchanged ∧
    (ofJson arabicAndCzechDocument).result = .ok .unchanged ∧
    ∃ merged, merge ⟨.theirs, .mine⟩ (ofJson czechDocument).value
        (ofJson arabicAndCzechDocument).value = .ok merged ∧ merged.outcome = .updated := by
  have hstored : (ofJson czechDocument).result = .ok .unchanged := by decide +kernel
  have hincoming : (ofJson arabicAndCzechDocument).result = .ok .unchanged := by decide +kernel
  obtain ⟨merged, hmerged, hupdated, _⟩ :=
    outcome_merge_loaded czechDocument arabicAndCzechDocument .unchanged .unchanged
      ⟨.theirs, .mine⟩ hstored hincoming
  exact ⟨hstored, hincoming, merged, hmerged, hupdated.2 (.inr ⟨rfl, comesBack_czech⟩)⟩

/-- The Czech title is driven out by the Arabic one and comes back: the record
is what it was, and the outcome is an update all the same. -/
theorem updated_although_same_record :
    ∃ merged, merge ⟨.theirs, .mine⟩ (ofJson czechDocument).value
        (ofJson arabicAndCzechDocument).value = .ok merged ∧
      merged.record = (ofJson czechDocument).value ∧ merged.outcome = .updated := by
  have hcrew : (ofJson czechDocument).value.crew.merge (ofJson arabicAndCzechDocument).value.crew
      = .ok (.keep .empty) := by decide +kernel
  refine ⟨_, merge_of_crew hcrew ⟨.theirs, .mine⟩, ?_, ?_⟩
  · decide +kernel
  · decide +kernel

end Record

end FilmCatalog
