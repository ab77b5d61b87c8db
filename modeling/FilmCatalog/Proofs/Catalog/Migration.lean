/-
  FilmCatalog.Proofs.Catalog.Migration
  ────────────────────────────────────
  **A CATALOG IS MIGRATED IN ONE PASS.**

  A record that is read is repaired, and its countries are brought in line with
  the table of countries.  Both are done for good: when the record was written
  and is read again, nothing is left to repair, to map or to note.

      open  →  record  →  save  →  open again: unchanged, no notes

  The countries settle because every country that the table gives, a code or a
  name it does not know, is given for itself (`mappedCountries_mappedCountries`).
  The rest settles because the text of a repaired record is read as its document
  and loads as the record.
-/
import FilmCatalog.Proofs.Files.Rewriting
import FilmCatalog.Proofs.Json.Length
import FilmCatalog.Proofs.Record.Writing

namespace FilmCatalog

/-! ## §1. Tables of countries. -/

namespace CountryTable

/-- A text that is one country, and not several with slashes between them or
with white space around it. -/
def OneCountry (country : String) : Prop :=
  '/' ∉ country.toList ∧ Text.trim country = country

instance (country : String) : Decidable (OneCountry country) := inferInstanceAs (Decidable (_ ∧ _))

/-- The codes of a table are single countries, and every name leads to a code. -/
structure Sound (table : CountryTable) : Prop where
  codes : ∀ code ∈ table.codes, OneCountry code
  names : ∀ name code, table.names.get? name = some code → code ∈ table.codes

theorem sound_empty : Sound empty where
  codes := by
    intro code hcode
    cases hcode
  names := by
    intro name code hcode
    cases hcode

/-- A table stays sound if a single country is added. -/
theorem Sound.insert {table : CountryTable} (h : Sound table) {code : String}
    (hcode : OneCountry code) (names : List String) : Sound (table.insert code names) where
  codes := List.forall_mem_cons.2 ⟨hcode, h.codes⟩
  names := by
    -- One name after the other; each leads to the new code, or where it led before.
    have hrun : ∀ all : SortedMap String,
        (∀ name other, all.get? name = some other → other ∈ code :: table.codes) →
        ∀ name other,
          (names.foldl (fun all name => all.insert (Text.lower name) code) all).get? name = some other →
          other ∈ code :: table.codes := by
      induction names with
      | nil => exact fun all hall => hall
      | cons first rest ih =>
        intro all hall
        refine ih (all.insert (Text.lower first) code) fun name other hother => ?_
        rw [SortedMap.get?_insert] at hother
        split at hother
        · cases hother
          exact List.mem_cons_self
        · exact hall name other hother
    exact hrun table.names fun name other hother =>
      List.mem_cons_of_mem _ (h.names name other hother)

/-- **A table of single countries is sound.** -/
theorem sound_ofList {countries : List (String × List String)}
    (h : ∀ country ∈ countries, OneCountry country.1) : Sound (ofList countries) := by
  have hrun : ∀ table, Sound table →
      Sound (countries.foldl (fun table country => table.insert country.1 country.2) table) := by
    induction countries with
    | nil => exact fun table htable => htable
    | cons country rest ih =>
      obtain ⟨hcountry, hrest⟩ := List.forall_mem_cons.1 h
      intro table htable
      exact ih hrest _ (htable.insert hcountry country.2)
  exact hrun empty sound_empty

section Settled

variable {table : CountryTable}

/-- A code is mapped to itself. -/
theorem map_of_mem {code : String} (h : code ∈ table.codes) : table.map code = code :=
  if_pos (List.contains_iff_mem.2 h)

/-- A country is mapped to a code, or it stays as it is and is not a code. -/
theorem map_cases (h : Sound table) (country : String) :
    table.map country ∈ table.codes ∨ table.map country = country := by
  unfold map
  split
  · exact .inr rfl
  · cases hname : table.names.get? (Text.lower country) with
    | none => exact .inr rfl
    | some code => exact .inl (h.names _ _ hname)

/-- A country that is mapped again stays as it is. -/
theorem map_map (h : Sound table) (country : String) :
    table.map (table.map country) = table.map country := by
  rcases map_cases h country with hcode | hsame
  · exact map_of_mem hcode
  · rw [hsame, hsame]

/-- A single country is mapped to a single country. -/
theorem oneCountry_map (h : Sound table) {country : String} (hcountry : OneCountry country) :
    OneCountry (table.map country) := by
  rcases map_cases h country with hcode | hsame
  · exact h.codes _ hcode
  · rw [hsame]
    exact hcountry

end Settled

end CountryTable

/-! ## §2. Countries of a record. -/

namespace Record

open CountryTable

/-- Countries that are single and mapped already stay as they are. -/
theorem mappedCountries_settled {table : CountryTable} {countries : List String}
    (h : ∀ country ∈ countries, OneCountry country ∧ table.map country = country) :
    mappedCountries table countries = countries := by
  unfold mappedCountries
  induction countries with
  | nil => rfl
  | cons country rest ih =>
    obtain ⟨⟨⟨hslash, htrim⟩, hmap⟩, hrest⟩ := List.forall_mem_cons.1 h
    rw [List.flatMap_cons, Text.pieces_of_not_mem hslash, List.map_append, ih hrest]
    simp [htrim, hmap]

/-- **Countries that were mapped are mapped to themselves.** -/
theorem mappedCountries_mappedCountries {table : CountryTable} (h : table.Sound)
    (countries : List String) :
    mappedCountries table (mappedCountries table countries) = mappedCountries table countries := by
  refine mappedCountries_settled fun country hcountry => ?_
  obtain ⟨piece, hpiece, rfl⟩ := List.mem_map.1 hcountry
  obtain ⟨text, _, hpiece⟩ := List.mem_flatMap.1 hpiece
  have hone : OneCountry (Text.trim piece) :=
    ⟨Text.not_mem_trim (Text.not_mem_of_mem_pieces hpiece), Text.trim_trim piece⟩
  exact ⟨oneCountry_map h hone, map_map h _⟩

/-- The repair maps the countries, whatever it notes. -/
theorem value_repairCountries (table : CountryTable) (r : Record) :
    (repairCountries table r).value = r.mapCountries table := by
  unfold repairCountries
  split
  · rename_i hsame
    unfold mapCountries
    rw [hsame]
    rfl
  · rfl

theorem repairCountries_of_mapped {table : CountryTable} {r : Record}
    (h : mappedCountries table r.countries = r.countries) :
    repairCountries table r = .done r .absent := if_pos h

theorem Repaired.mapCountries {C : Crew → Prop} {r : Record} (h : Repaired C r)
    (table : CountryTable) : Repaired C (r.mapCountries table) :=
  ⟨⟨h.crew, h.title, h.image, h.dates⟩, h.pruned, h.tags⟩

/-! ## §3. Records in files. -/

theorem ok_of_mapError {ε δ α : Type} {f : ε → δ} {result : Except ε α} {value : α}
    (h : result.mapError f = .ok value) : result = .ok value := by
  cases result with
  | error error => cases h
  | ok found =>
    cases h
    rfl

/-- A record is opened as the document in its file is loaded and its countries
are mapped. -/
theorem openFile_of_read {tree : FileTree} {infos id text : String} {node : Json}
    (hread : tree.read (path infos id) = .ok text) (hnode : Json.read? text = some node)
    (table : CountryTable) :
    openFile tree table infos id
      = ⟨((ofJson node).andThen (repairCountries table)).value,
          ((ofJson node).andThen (repairCountries table)).notes,
          ((ofJson node).andThen (repairCountries table)).result.mapError (.invalidRecord id)⟩ := by
  unfold openFile readFile
  rw [hread]
  simp only [Except.mapError, hnode]

/-- A file that is opened holds the text of a document that can be loaded. -/
theorem exists_of_openFile {tree : FileTree} {table : CountryTable} {infos id : String}
    {outcome : Outcome} (h : (openFile tree table infos id).result = .ok outcome) :
    ∃ text node before, tree.read (path infos id) = .ok text ∧ Json.read? text = some node ∧
      (ofJson node).result = .ok before ∧
      (openFile tree table infos id).record = (ofJson node).value.mapCountries table := by
  cases hread : tree.read (path infos id) with
  | error error =>
    unfold openFile readFile at h
    rw [hread] at h
    cases h
  | ok text =>
    cases hnode : Json.read? text with
    | none =>
      unfold openFile readFile at h
      rw [hread] at h
      simp only [Except.mapError, hnode] at h
      cases h
    | some node =>
      rw [openFile_of_read hread hnode] at h ⊢
      obtain ⟨hvalue, before, _, hbefore, _⟩ := Loaded.andThen_ok (ok_of_mapError h)
      refine ⟨text, node, before, rfl, hnode, hbefore, ?_⟩
      rw [← value_repairCountries]
      exact hvalue

/-- The record is read, and written in its place. -/
def resaved (tree : FileTree) (table : CountryTable) (infos id : String) : Saved :=
  (openFile tree table infos id).record.saveFile tree infos id

/-- The record is read, written in its place and read again. -/
def reopened (tree : FileTree) (table : CountryTable) (infos id : String) : Opened :=
  openFile (resaved tree table infos id).tree table infos id

/-- What a record is when it comes back from its file. -/
def reread (r : Record) : Record := { r with image := r.image.reread Address.isRemote }

theorem countries_reread (r : Record) : r.reread.countries = r.countries := rfl

theorem sameButImage_reread (r : Record) : r.reread.SameButImage r := rfl

/-- A repaired record with settled countries is written over its file, and found
there. -/
theorem openFile_saveFile {tree : FileTree} {infos id text : String}
    (hread : tree.read (path infos id) = .ok text) {r : Record}
    (h : Repaired (fun c => c.Normal ∧ c.Modest) r) {table : CountryTable}
    (hcountries : mappedCountries table r.countries = r.countries) :
    openFile (r.saveFile tree infos id).tree table infos id = ⟨r.reread, [], .ok .unchanged⟩ := by
  have hloaded : (ofJson r.toJson).andThen (repairCountries table)
      = .done r.reread .unchanged := by
    unfold ofJson
    rw [ofJsonBy_toJson h]
    show (Loaded.done r.reread .unchanged).andThen (repairCountries table) = _
    have hsettled : repairCountries table r.reread = .done r.reread .absent :=
      repairCountries_of_mapped hcountries
    exact Loaded.andThen_quiet rfl (hsettled ▸ Loaded.quiet_absent _)
  rw [openFile_of_read (read_saveFile hread r).2 (read?_text h), hloaded]
  rfl

/-- **A record settles in one pass.**  When it was read and written, with a table
whose codes are single countries, it is read again without a change and without
a note, and its countries, and all but its images, are what they were. -/
theorem reopened_unchanged {countries : List (String × List String)}
    (hcodes : ∀ country ∈ countries, OneCountry country.1) {tree : FileTree} {infos id : String}
    (hroom : ∀ text, tree.read (path infos id) = .ok text → text.length ≤ Json.room)
    {outcome : Outcome} (h : (openFile tree (.ofList countries) infos id).result = .ok outcome) :
    (resaved tree (.ofList countries) infos id).result = .ok () ∧
      (reopened tree (.ofList countries) infos id).result = .ok .unchanged ∧
      (reopened tree (.ofList countries) infos id).notes = [] ∧
      (reopened tree (.ofList countries) infos id).record.countries
        = (openFile tree (.ofList countries) infos id).record.countries ∧
      (reopened tree (.ofList countries) infos id).record.SameButImage
        (openFile tree (.ofList countries) infos id).record := by
  obtain ⟨text, node, before, hread, hnode, hbefore, hrecord⟩ := exists_of_openFile h
  have hrepaired : Repaired (fun c => c.Normal ∧ c.Modest)
      (openFile tree (.ofList countries) infos id).record := by
    rw [hrecord]
    have hroom := Json.addressable_of_read? (hroom text hread) hnode
    exact (ensures_ofJsonBy_modest isRemote_empty hroom before hbefore).mapCountries _
  have hsettled : mappedCountries (.ofList countries)
      (openFile tree (.ofList countries) infos id).record.countries
        = (openFile tree (.ofList countries) infos id).record.countries := by
    rw [hrecord]
    exact mappedCountries_mappedCountries (sound_ofList hcodes) _
  have hagain := openFile_saveFile hread hrepaired hsettled
  unfold reopened resaved
  rw [hagain]
  exact ⟨(read_saveFile hread _).1, rfl, rfl, countries_reread _, sameButImage_reread _⟩

/-- Two countries, each with two names. -/
def twoCountries : List (String × List String) :=
  [("US", ["USA", "United States"]), ("FR", ["France", "Frankreich"])]

/-- A file in an old layout: several countries in one text, and a repeated tag. -/
def agedText : String :=
  "\x7b\"countries\": [\" usa / Frankreich/ Atlantis \"], \"tags\": [\"seen\", \"seen\"], "
    ++ "\"title\": \x7b\"local\": \"Up\", \"orig\": \"Haut\"\x7d\x7d"

/-- A tree with that file. -/
def agedTree : FileTree :=
  (FileTree.empty "").put "/up.json" (.file agedText (.second 0))

theorem reopened_unchanged_aged :
    (∀ country ∈ twoCountries, OneCountry country.1) ∧
    (openFile agedTree (.ofList twoCountries) "/" "up").result = .ok .updated ∧
    (openFile agedTree (.ofList twoCountries) "/" "up").record.countries = ["US", "FR", "Atlantis"] ∧
    (resaved agedTree (.ofList twoCountries) "/" "up").result = .ok () ∧
    (reopened agedTree (.ofList twoCountries) "/" "up").result = .ok .unchanged ∧
    (reopened agedTree (.ofList twoCountries) "/" "up").notes = [] ∧
    (reopened agedTree (.ofList twoCountries) "/" "up").record.countries
      = ["US", "FR", "Atlantis"] := by
  have hcodes : ∀ country ∈ twoCountries, OneCountry country.1 := by decide +kernel
  have hread : agedTree.read (path "/" "up") = .ok agedText := by decide +kernel
  have hroom : ∀ text, agedTree.read (path "/" "up") = .ok text → text.length ≤ Json.room := by
    intro text htext
    rw [hread] at htext
    cases htext
    decide +kernel
  obtain ⟨hresult, hcountries⟩ :
      (openFile agedTree (.ofList twoCountries) "/" "up").result = .ok .updated ∧
      (openFile agedTree (.ofList twoCountries) "/" "up").record.countries
        = ["US", "FR", "Atlantis"] := by decide +kernel
  obtain ⟨hsaved, hagain, hnotes, hkept, _⟩ := reopened_unchanged hcodes hroom hresult
  exact ⟨hcodes, hresult, hcountries, hsaved, hagain, hnotes, hkept.trans hcountries⟩

end Record

end FilmCatalog
