/-
  FilmCatalog.Proofs.Record.RoundTrip
  ───────────────────────────────────
  **A STORED RECORD IS LOADED AGAIN.**

  The fields of a stored record are those of sixteen properties, and no key
  belongs to two of them.  So each step of a load finds what was stored for it
  and nothing else, and none of them has anything to repair:

      ofJsonBy isRemote r.toJson
        = done { r with image := r.image.reread isRemote } .unchanged

  The images are loaded again as they were exactly if each of them is
  unambiguous.  All this holds for every test of remote addresses that the
  empty text fails.
-/
import FilmCatalog.Proofs.Artwork.Storing
import FilmCatalog.Proofs.Record.SelfMerge
import FilmCatalog.Proofs.Record.Storing

namespace FilmCatalog.Record

open Loaded Translated

variable {isRemote : String → Bool}

/-! ## §1. The stored fields. -/

/-- The fields of a record, property by property. -/
def groups (r : Record) : List (String × List (String × Json)) :=
  [ ("refs", [("refs", storeTexts r.refs)]),
    ("title", stored Title.store "title" r.title),
    ("genres", [("genres", storeTexts r.genres)]),
    ("countries", [("countries", storeTexts r.countries)]),
    ("age", [("age", storeTexts r.age)]),
    ("tags", [("tags", storeTexts r.tags)]),
    ("episodes", [("episodes", storeTexts r.episodes)]),
    ("crew", [("crew", r.crew.store)]),
    ("tagline", stored .string "tagline" r.tagline),
    ("summary", stored .string "summary" r.summary),
    ("image", [("image", r.image.store)]),
    ("dates", [("dates", r.dates.store)]),
    ("year", [("year", storeOptional storeUInt32 r.year)]),
    ("runtime", [("runtime", storeOptional storeUInt32 r.runtime)]),
    ("rating", [("rating", storeOptional storeUInt32 r.rating)]),
    ("video", [("video", r.video.store)]) ]

/-- The stored fields are those of the groups. -/
theorem storedParts_eq (r : Record) : r.storedParts = ungrouped r.groups := by
  unfold storedParts groups ungrouped
  simp

/-- The fields of a record are grouped by their properties. -/
theorem grouped (r : Record) : Grouped r.groups where
  names := by
    show ["refs", "title", "genres", "countries", "age", "tags", "episodes", "crew", "tagline",
      "summary", "image", "dates", "year", "runtime", "rating", "video"].Nodup
    decide
  belong := by
    unfold groups
    simp only [List.forall_mem_cons]
    refine ⟨belongs_single ?_ _, belongs_stored ?_ _ _, belongs_single ?_ _, belongs_single ?_ _,
      belongs_single ?_ _, belongs_single ?_ _, belongs_single ?_ _, belongs_single ?_ _,
      belongs_stored ?_ _ _, belongs_stored ?_ _ _, belongs_single ?_ _, belongs_single ?_ _,
      belongs_single ?_ _, belongs_single ?_ _, belongs_single ?_ _, belongs_single ?_ _, nofun⟩
    all_goals decide

/-- The fields that a load of a stored record sees. -/
def fields (r : Record) : Json.Fields := storedObject (ungrouped r.groups)

/-- A record is stored as an object, even an empty one. -/
theorem toJson_eq (r : Record) : r.toJson = .object r.fields := by
  unfold toJson store fields
  rw [storedParts_eq]
  rcases storeFields_eq (ungrouped r.groups) with ⟨hstore, hobject⟩ | hstore
  · rw [hstore, hobject]
  · rw [hstore]

/-- A property with one field is loaded again. -/
theorem quiet_single {r : Record} {α : Type} {load : Loader α} {name : String} {node : Json}
    (hname : Plain name) (hgroup : Entries.get? name r.groups = some [(name, node)]) {old y : α}
    (h : Rereads load old node y) : (loadField load r.fields name old).Quiet y :=
  quiet_loadField r.grouped.nodup_keys (r.grouped.get?_single hname hgroup) h

/-- A natural under its name is loaded again. -/
theorem quiet_natural {r : Record} {name : String} {value : Option UInt32} (hname : Plain name)
    (hgroup : Entries.get? name r.groups = some [(name, storeOptional storeUInt32 value)])
    (old : Option UInt32) : (loadOptional loadUInt32 0 r.fields name old).Quiet value :=
  quiet_loadUInt32 r.grouped.nodup_keys (r.grouped.get?_single hname hgroup) old

/-- A property with languages that keep their values is loaded again. -/
theorem quiet_languages {r : Record} {α : Type} {load : Loader α} {fresh : α} {store : α → Json}
    {name : String} {m : Translated α} (hname : Plain name)
    (hgroup : Entries.get? name r.groups = some (stored store name m))
    (h : ∀ tag value, SortedMap.get? m tag = some value →
      (store value).isNull = false ∧ load fresh (store value) = done value .unchanged) :
    (Translated.load load fresh r.fields name .empty).Quiet m := by
  have hholds : Holds load fresh id store name m r.fields := r.grouped.holds hname hgroup h
  have hself : SortedMap.map id m = m := SortedMap.map_eq_self.2 fun _ _ _ => rfl
  exact hself ▸ hholds.quiet_load

/-! ## §2. The head of a record. -/

/-- A list of texts under its name is loaded again. -/
theorem quiet_texts {r : Record} {name : String} {texts : List String} (hname : Plain name)
    (hgroup : Entries.get? name r.groups = some [(name, storeTexts texts)]) :
    (loadField loadTexts r.fields name []).Quiet texts :=
  quiet_single hname hgroup (rereads_storeTexts texts)

/-- A list of texts is never stored as a single text. -/
theorem quiet_textsOrText {r : Record} {name : String} {texts : List String} (hname : Plain name)
    (hgroup : Entries.get? name r.groups = some [(name, storeTexts texts)]) :
    (loadTextsOrText r.fields name []).Quiet texts := by
  have hquiet := quiet_texts hname hgroup
  have hget := get?_storedObject r.grouped.nodup_keys name
  rw [r.grouped.get?_single hname hgroup] at hget
  unfold loadTextsOrText
  split
  · -- What is stored is a list or nothing.
    rename_i text htext
    have hstored := hget.symm.trans htext
    cases texts <;> cases hstored
  · exact hquiet

/-- Normal titles are loaded again. -/
theorem quiet_title {r : Record} (h : Forall Title.Normal r.title) :
    (Translated.load Title.load default r.fields "title" .empty).Quiet r.title :=
  quiet_languages (by decide) rfl fun tag title htitle => Title.load_store (h tag title htitle)

/-- Nothing in a stored record looks like titles of the old layout. -/
theorem loadLegacy_fields {r : Record} (h : Forall Title.Normal r.title) (old : Titles) :
    Titles.loadLegacy r.fields old = done old .absent := by
  have hholds : Holds Title.load default id Title.store "title" r.title r.fields :=
    r.grouped.holds (by decide) rfl fun tag title htitle => Title.load_store (h tag title htitle)
  refine Titles.loadLegacy_stored (fun node hnode => ?_) old
  obtain ⟨title, _, htitle⟩ := hholds.belongs "title" node defaultTag hnode (tagOf?_keyFor "title" "")
  exact ⟨title, htitle⟩

/-- What is known of a record after its head was loaded. -/
def head (r : Record) : Record :=
  { empty with
    refs := r.refs, title := r.title, genres := r.genres, countries := r.countries, age := r.age,
    tags := r.tags, episodes := r.episodes }

/-- **The head of a stored record is loaded again.** -/
theorem loadHead_fields {r : Record} (h : Forall Title.Normal r.title) :
    loadHead r.fields empty = done r.head .unchanged := by
  -- The steps from the last one back, each with what is known before it.
  let beforeEpisodes : Record := { r.head with episodes := [] }
  let beforeTags : Record := { beforeEpisodes with tags := [] }
  let beforeAge : Record := { beforeTags with age := [] }
  let beforeCountries : Record := { beforeAge with countries := [] }
  let beforeGenres : Record := { beforeCountries with genres := [] }
  let beforeTitle : Record := { beforeGenres with title := .empty }
  have hrefs : (loadField loadTexts r.fields "refs" []).Quiet r.refs := quiet_texts (by decide) rfl
  have hgenres : (loadField loadTexts r.fields "genres" []).Quiet r.genres :=
    quiet_texts (by decide) rfl
  have hcountries : (loadField loadTexts r.fields "countries" []).Quiet r.countries :=
    quiet_texts (by decide) rfl
  have hage : (loadTextsOrText r.fields "age" []).Quiet r.age := quiet_textsOrText (by decide) rfl
  have htags : (loadField loadTexts r.fields "tags" []).Quiet r.tags := quiet_texts (by decide) rfl
  have hepisodes : (loadField loadTexts r.fields "episodes" []).Quiet r.episodes :=
    quiet_texts (by decide) rfl
  have hlegacy : (Titles.loadLegacy r.fields r.title).Quiet r.title :=
    loadLegacy_fields h r.title ▸ quiet_absent r.title
  unfold loadHead
  refine andThen_quiet (a := beforeEpisodes) ?_ (hepisodes.into _)
  refine andThen_quiet (a := beforeTags) ?_ (htags.into _)
  refine andThen_quiet (a := beforeAge) ?_ (hage.into _)
  refine andThen_quiet (a := beforeCountries) ?_ (hcountries.into _)
  refine andThen_quiet (a := beforeGenres) ?_ (hgenres.into _)
  refine andThen_quiet (a := beforeGenres) ?_ (hlegacy.into _)
  refine andThen_quiet (a := beforeTitle) ?_ ((quiet_title h).into _)
  exact andThen_quiet rfl (hrefs.into _)

/-! ## §3. The body of a record. -/

/-- A normal crew of a modest size is loaded again. -/
theorem quiet_crew {r : Record} (h : r.crew.Normal) (hmodest : r.crew.Modest) :
    (Crew.loadFromRecord r.fields .empty).Quiet r.crew :=
  Crew.quiet_loadFromRecord r.grouped.nodup_keys h hmodest
    (r.grouped.get?_single (by decide) rfl)

/-- Texts by language are loaded again. -/
theorem quiet_translation {r : Record} {name : String} {m : Translated String} (hname : Plain name)
    (hgroup : Entries.get? name r.groups = some (stored .string name m)) :
    (Translated.load loadText "" r.fields name .empty).Quiet m :=
  quiet_languages hname hgroup fun _ text _ => ⟨rfl, loadText_store text ""⟩

/-- **The body of a stored record is loaded again**, but images are taken for
remote or local ones anew. -/
theorem loadBody_fields {r : Record} (hcrew : r.crew.Normal) (hmodest : r.crew.Modest)
    (himage : r.image.Tidy) (hdates : r.dates.InCalendar) :
    loadBody isRemote r.fields r.head
      = done { r with image := r.image.reread isRemote } .unchanged := by
  -- Again from the last step back, down to the crew, which starts from the head.
  let beforeVideo : Record := { r with image := r.image.reread isRemote, video := .unknown }
  let beforeRating : Record := { beforeVideo with rating := none }
  let beforeRuntime : Record := { beforeRating with runtime := none }
  let beforeYear : Record := { beforeRuntime with year := none }
  let beforeDates : Record := { beforeYear with dates := .none }
  let beforeImage : Record := { beforeDates with image := .none }
  let beforeSummary : Record := { beforeImage with summary := .empty }
  let beforeTagline : Record := { beforeSummary with tagline := .empty }
  have htagline : (Translated.load loadText "" r.fields "tagline" .empty).Quiet r.tagline :=
    quiet_translation (by decide) rfl
  have hsummary : (Translated.load loadText "" r.fields "summary" .empty).Quiet r.summary :=
    quiet_translation (by decide) rfl
  have himages : (loadField (Artwork.load isRemote) r.fields "image" .none).Quiet
      (r.image.reread isRemote) :=
    quiet_single (by decide) rfl (Artwork.rereads_store himage)
  have hdate : (loadField Dates.load r.fields "dates" .none).Quiet r.dates :=
    quiet_single (by decide) rfl (Dates.rereads_store hdates)
  have hyear : (loadOptional loadUInt32 0 r.fields "year" none).Quiet r.year :=
    quiet_natural (by decide) rfl none
  have hruntime : (loadOptional loadUInt32 0 r.fields "runtime" none).Quiet r.runtime :=
    quiet_natural (by decide) rfl none
  have hrating : (loadOptional loadUInt32 0 r.fields "rating" none).Quiet r.rating :=
    quiet_natural (by decide) rfl none
  have hvideo : (loadField Playback.load r.fields "video" .unknown).Quiet r.video :=
    quiet_single (by decide) rfl r.video.rereads_store
  unfold loadBody
  refine andThen_quiet (a := beforeVideo) ?_ (hvideo.into _)
  refine andThen_quiet (a := beforeRating) ?_ (hrating.into _)
  refine andThen_quiet (a := beforeRuntime) ?_ (hruntime.into _)
  refine andThen_quiet (a := beforeYear) ?_ (hyear.into _)
  refine andThen_quiet (a := beforeDates) ?_ (hdate.into _)
  refine andThen_quiet (a := beforeImage) ?_ (himages.into _)
  refine andThen_quiet (a := beforeSummary) ?_ (hsummary.into _)
  refine andThen_quiet (a := beforeTagline) ?_ (htagline.into _)
  exact andThen_quiet rfl ((quiet_crew hcrew hmodest).into _)

/-! ## §4. The round trip. -/

/-- The repairs find nothing to do in a repaired record. -/
theorem repair_of_repaired {r : Record} (hpruned : Titles.Pruned r.title) (htags : r.tags.Nodup) :
    r.repair.Quiet r := by
  -- Both repairs find nothing: no tag repeats, and no original title is unneeded.
  have hkept : firstOccurrences [] r.tags = r.tags := firstOccurrences_eq_self htags (by simp)
  have hrepeated : r.hasRepeatedTag = false := by
    unfold hasRepeatedTag dedupTags
    simp only [hkept]
    simp
  have hrepair : r.repairTags.Quiet r := by
    unfold repairTags
    rw [hrepeated]
    exact quiet_absent r
  have htitle : (Titles.dropUnneededOriginal r.title).Quiet r.title :=
    Titles.dropUnneededOriginal_of_pruned hpruned ▸ quiet_unchanged r.title
  exact Quiet.andThen (a := r) (htitle.into _) hrepair

/-- **A record that is as loads leave it is loaded again**, its images each as
what its text says. -/
theorem ofJsonBy_toJson {r : Record} (h : Repaired (fun c => c.Normal ∧ c.Modest) r) :
    ofJsonBy isRemote r.toJson
      = done { r with image := r.image.reread isRemote } .unchanged := by
  have hbody : loadBody isRemote r.fields r.head = _ :=
    loadBody_fields h.crew.1 h.crew.2 h.image h.dates
  have hrepair : ({ r with image := r.image.reread isRemote } : Record).repair.Quiet
      { r with image := r.image.reread isRemote } := repair_of_repaired h.pruned h.tags
  rw [toJson_eq]
  show ((loadHead r.fields empty).andThen (loadBody isRemote r.fields)).andThen repair = _
  exact andThen_quiet (andThen_quiet (loadHead_fields h.title) (hbody ▸ quiet_unchanged _)) hrepair

theorem ensures_ofJsonBy_modest (hempty : isRemote "" = false) {node : Json}
    (hroom : node.Addressable) :
    (ofJsonBy isRemote node).Ensures (Repaired fun c => c.Normal ∧ c.Modest) := by
  refine ensures_ofJsonBy hempty ⟨Crew.normal_empty, Crew.modest_empty⟩ ?_
  rintro fields rfl old ⟨hnormal, hmodest⟩
  exact (Crew.ensures_loadFromRecord fields hnormal).and
    (Crew.ensures_modest_loadFromRecord hroom hmodest)

/-- **Storing and loading keep every record of a document**, whatever the
addresses that are taken for remote ones, the empty text apart.  The second
load has nothing to note or to update, and all fields but the images are as
they were; the whole record is exactly if no image is ambiguous. -/
theorem reload_loaded (isRemote : String → Bool) (hempty : isRemote "" = false) (node : Json)
    (outcome : Outcome) (hroom : node.Addressable)
    (h : (ofJsonBy isRemote node).result = .ok outcome) :
    (ofJsonBy isRemote (ofJsonBy isRemote node).value.toJson).result = .ok .unchanged ∧
      (ofJsonBy isRemote (ofJsonBy isRemote node).value.toJson).notes = [] ∧
      (ofJsonBy isRemote (ofJsonBy isRemote node).value.toJson).value.SameButImage
        (ofJsonBy isRemote node).value ∧
      ((ofJsonBy isRemote (ofJsonBy isRemote node).value.toJson).value
          = (ofJsonBy isRemote node).value ↔
        ∀ image ∈ (ofJsonBy isRemote node).value.image.images, image.Unambiguous isRemote) := by
  have hloaded := ensures_ofJsonBy_modest hempty hroom outcome h
  rw [ofJsonBy_toJson hloaded]
  refine ⟨rfl, rfl, rfl, ?_⟩
  rw [← Artwork.reread_eq_self_iff]
  generalize (ofJsonBy isRemote node).value = r
  constructor
  · exact fun hsame => congrArg Record.image hsame
  · intro himage
    show { r with image := r.image.reread isRemote } = r
    rw [himage]

/-- A document with keyed roles, titles of the old layout, a repeated tag and
a marker by number, and with an image whose path is a remote address. -/
def agedDocument : Json :=
  .object [
    ("age", .string "12"),
    ("crew", .object [
      ("cast", .array [.array [.string "bob", .string "Driver"], .string "ann"]),
      ("directors", .array [.string "ann"])]),
    ("image", .object [
      ("gallery", .array [
        .array [.string "https://example.org/a.jpg", .string ""], .string "stills/b.jpg"]),
      ("poster:en", .object [("small", .string "https://example.org/s.jpg")])]),
    ("people", .object [("ann", .string "Ann Lee")]),
    ("tags", .array [.string "seen", .string "seen"]),
    ("title", .object [("local", .string "Up"), ("orig", .string "Haut")]),
    ("video", .object [("markers", .array [.object [("start", .ofInt 7), ("type", .ofInt 1)]])])]

theorem reload_loaded_aged :
    agedDocument.Addressable ∧ (ofJson agedDocument).result = .ok .updated ∧
      (ofJson (ofJson agedDocument).value.toJson).result = .ok .unchanged ∧
      (ofJson (ofJson agedDocument).value.toJson).notes = [] ∧
      (ofJson (ofJson agedDocument).value.toJson).value.SameButImage (ofJson agedDocument).value ∧
      (ofJson (ofJson agedDocument).value.toJson).value ≠ (ofJson agedDocument).value := by
  have hroom : agedDocument.Addressable := by
    show agedDocument.count ≤ Json.room
    decide +kernel
  have hresult : (ofJson agedDocument).result = .ok .updated := by decide +kernel
  have himage : ⟨"https://example.org/a.jpg", none⟩ ∈ (ofJson agedDocument).value.image.images := by
    decide +kernel
  have hremote : Address.isRemote "https://example.org/a.jpg" = true := by decide +kernel
  obtain ⟨hagain, hnotes, hfields, hsame⟩ :=
    reload_loaded Address.isRemote isRemote_empty agedDocument .updated hroom hresult
  refine ⟨hroom, hresult, hagain, hnotes, hfields, fun heq => ?_⟩
  have hlocal := (hsame.1 heq _ himage).1 rfl
  rw [hremote] at hlocal
  cases hlocal

end FilmCatalog.Record
