/-
  FilmCatalog.Proofs.Crew.References
  ──────────────────────────────────
  **REFERENCES OF A PERSON IN CANONICAL FORM.**

  A reference is cut at its first colon, so no key holds a colon, and a key
  without a colon can be joined with any value and cut off again
  (`splitRef_joinRef`).  A map of references whose keys are such (`PlainKeys`)
  is therefore recovered from the person that is made of it, and

      p.canonical.canonical = p.canonical

  Both maps that a merge unites have plain keys, and so has their union.

  Read off the references themselves, the canonical form says that their keys
  ascend, so that none comes twice, and that no reference is a key with a colon
  and nothing behind it (`canonical_eq_self_iff`).
-/
import FilmCatalog.Crew.Basic
import FilmCatalog.Proofs.SortedMap
import FilmCatalog.Proofs.Text

namespace FilmCatalog

namespace Person

/-! ## §1. Keys and values of references. -/

/-- The key of a reference holds no colon. -/
theorem colon_not_mem_splitRef (ref : String) : ':' ∉ (splitRef ref).1.toList := by
  have hcut := Text.not_mem_splitFirst ':' ref.toList
  unfold splitRef Text.cutFirst
  cases hsplit : Text.splitFirst ':' ref.toList with
  | none =>
    rw [hsplit] at hcut
    exact hcut
  | some parts =>
    rw [hsplit] at hcut
    simp only [Option.map_some, String.toList_ofList]
    exact hcut

/-- A reference without a colon is a key without a value. -/
theorem splitRef_of_plain {key : String} (h : ':' ∉ key.toList) : splitRef key = (key, "") := by
  unfold splitRef
  rw [Text.cutFirst_eq_none h]

/-- A reference is cut at its first colon. -/
theorem splitRef_colon {key : String} (h : ':' ∉ key.toList) (value : String) :
    splitRef (key ++ ":" ++ value) = (key, value) := by
  unfold splitRef
  rw [Text.cutFirst_colon h]

/-- A plain key and its value are found again in their reference. -/
theorem splitRef_joinRef {key : String} (h : ':' ∉ key.toList) (value : String) :
    splitRef (joinRef key value) = (key, value) := by
  unfold joinRef
  by_cases hvalue : value = ""
  · rw [if_pos hvalue, splitRef_of_plain h, hvalue]
  · rw [if_neg hvalue, splitRef_colon h]

/-- No key of the map holds a colon. -/
def PlainKeys (refs : SortedMap String) : Prop :=
  ∀ key value, refs.get? key = some value → ':' ∉ key.toList

/-- The references of a person have plain keys. -/
theorem plainKeys_refMap (p : Person) : PlainKeys p.refMap := by
  intro key value h
  unfold refMap at h
  rw [SortedMap.get?_ofList] at h
  -- An entry of the map comes from a reference, cut at its first colon.
  have hmem := List.mem_reverse.1 (Entries.mem_of_get? h)
  obtain ⟨ref, _, href⟩ := List.mem_map.1 hmem
  have hkey : (splitRef ref).1 = key := congrArg Prod.fst href
  exact hkey ▸ colon_not_mem_splitRef ref

theorem plainKeys_override {refs others : SortedMap String} (hrefs : PlainKeys refs)
    (hothers : PlainKeys others) : PlainKeys (refs.override others) := by
  intro key value h
  rw [SortedMap.get?_override] at h
  cases hother : others.get? key with
  | some other => exact hothers key other hother
  | none =>
    rw [hother, Option.none_or] at h
    exact hrefs key value h

/-! ## §2. The canonical form. -/

/-- Each reference is cut where it was joined. -/
theorem map_splitRef_joinRef {refs : SortedMap String} (h : PlainKeys refs) :
    (refs.entries.map fun entry => joinRef entry.1 entry.2).map splitRef = refs.entries := by
  rw [List.map_map]
  refine (List.map_congr_left fun entry hentry => ?_).trans (List.map_id _)
  exact splitRef_joinRef (h entry.1 entry.2 (SortedMap.get?_of_mem_entries hentry)) entry.2

/-- References that are written in key order are read back as they were. -/
theorem refMap_ofRefMap (name : String) {refs : SortedMap String} (h : PlainKeys refs) :
    (ofRefMap name refs).refMap = refs := by
  unfold refMap
  show SortedMap.ofList ((refs.entries.map fun entry => joinRef entry.1 entry.2).map splitRef) = refs
  rw [map_splitRef_joinRef h, SortedMap.ofList_entries]

/-- A person who is made from references with plain keys is canonical. -/
theorem canonical_ofRefMap (name : String) {refs : SortedMap String} (h : PlainKeys refs) :
    (ofRefMap name refs).canonical = ofRefMap name refs := by
  unfold canonical
  rw [refMap_ofRefMap name h]
  rfl

/-- The canonical form is reached in one step. -/
theorem canonical_canonical (p : Person) : p.canonical.canonical = p.canonical :=
  canonical_ofRefMap p.name p.plainKeys_refMap

/-! ## §3. What canonical references look like. -/

/-- The key of a reference: what stands before its first colon. -/
def keyOf (ref : String) : String := String.ofList (ref.toList.takeWhile (· ≠ ':'))

theorem keyOf_of_plain {key : String} (h : ':' ∉ key.toList) : keyOf key = key := by
  have hall : ∀ c ∈ key.toList, decide (c ≠ ':') = true :=
    fun c hc => decide_eq_true fun heq => h (heq ▸ hc)
  unfold keyOf
  rw [List.takeWhile_eq_self_iff.2 hall, String.ofList_toList]

theorem keyOf_colon {key : String} (h : ':' ∉ key.toList) (value : String) :
    keyOf (key ++ ":" ++ value) = key := by
  have hall : ∀ c ∈ key.toList, decide (c ≠ ':') = true :=
    fun c hc => decide_eq_true fun heq => h (heq ▸ hc)
  have hchars : (key ++ ":" ++ value).toList = key.toList ++ ':' :: value.toList := by simp
  unfold keyOf
  rw [hchars, List.takeWhile_append_of_pos hall, List.takeWhile_cons_of_neg (by simp),
    List.append_nil, String.ofList_toList]

/-- A reference is a key alone, or a key and a value with a colon between. -/
theorem ref_cases (ref : String) :
    ∃ key, ':' ∉ key.toList ∧ (ref = key ∨ ∃ value, ref = key ++ ":" ++ value) := by
  by_cases hcolon : ':' ∈ ref.toList
  · obtain ⟨before, after, hchars, hbefore⟩ := List.eq_append_cons_of_mem hcolon
    refine ⟨String.ofList before, ?_, .inr ⟨String.ofList after, ?_⟩⟩
    · rw [String.toList_ofList]
      exact hbefore
    · rw [← String.toList_inj, hchars]
      simp
  · exact ⟨ref, hcolon, .inl rfl⟩

/-- A reference is cut at the end of its key. -/
theorem fst_splitRef (ref : String) : (splitRef ref).1 = keyOf ref := by
  obtain ⟨key, hkey, rfl | ⟨value, rfl⟩⟩ := ref_cases ref
  · rw [splitRef_of_plain hkey, keyOf_of_plain hkey]
  · rw [splitRef_colon hkey, keyOf_colon hkey]

/-- Only a colon with nothing behind it is lost when a reference is written
anew. -/
theorem joinRef_splitRef_iff (ref : String) :
    joinRef (splitRef ref).1 (splitRef ref).2 = ref ↔ ref ≠ keyOf ref ++ ":" := by
  obtain ⟨key, hkey, rfl | ⟨value, rfl⟩⟩ := ref_cases ref
  · have hjoin : joinRef ref "" = ref := if_pos rfl
    rw [splitRef_of_plain hkey, hjoin, keyOf_of_plain hkey]
    refine iff_of_true rfl fun heq => ?_
    have hlength := congrArg String.length heq
    simp at hlength
  · rw [splitRef_colon hkey, keyOf_colon hkey]
    unfold joinRef
    by_cases hvalue : value = ""
    · subst hvalue
      refine iff_of_false (fun heq => ?_) (not_not_intro (String.append_empty))
      have hlength := congrArg String.length heq
      simp at hlength
    · rw [if_neg hvalue]
      refine iff_of_true rfl fun heq => hvalue ?_
      have hlength := congrArg String.length heq
      simpa using hlength

/-- **References are canonical exactly if** their keys ascend, so that no key
comes twice, and none of them is a key with a colon and nothing behind it. -/
theorem canonical_eq_self_iff {p : Person} :
    p.canonical = p ↔
      (p.refs.map keyOf).Pairwise (· < ·) ∧ ∀ ref ∈ p.refs, ref ≠ keyOf ref ++ ":" := by
  have hkeys : p.refs.map keyOf = (p.refs.map splitRef).map (·.1) := by
    rw [List.map_map]
    exact List.map_congr_left fun ref _ => (fst_splitRef ref).symm
  rw [hkeys]
  constructor
  · intro hcanonical
    have hrefs : (p.refMap.entries.map fun entry => joinRef entry.1 entry.2) = p.refs :=
      congrArg Person.refs hcanonical
    have hsplit : p.refs.map splitRef = p.refMap.entries := by
      rw [← hrefs, map_splitRef_joinRef p.plainKeys_refMap]
    refine ⟨?_, fun ref href => (joinRef_splitRef_iff ref).1 ?_⟩
    · rw [hsplit]
      exact p.refMap.pairwise_keys
    · rw [← hrefs] at href
      obtain ⟨entry, hentry, rfl⟩ := List.mem_map.1 href
      have hplain := p.plainKeys_refMap entry.1 entry.2 (SortedMap.get?_of_mem_entries hentry)
      rw [splitRef_joinRef hplain]
  · rintro ⟨hascending, hwritten⟩
    -- In ascending order the references are the entries of their own map.
    have hmap : p.refMap = ⟨p.refs.map splitRef, List.pairwise_map.1 hascending⟩ :=
      SortedMap.ofList_entries ⟨p.refs.map splitRef, List.pairwise_map.1 hascending⟩
    have hrefs : (p.refMap.entries.map fun entry => joinRef entry.1 entry.2) = p.refs := by
      rw [hmap, List.map_map]
      refine (List.map_congr_left fun ref href => ?_).trans (List.map_id _)
      exact (joinRef_splitRef_iff ref).2 (hwritten ref href)
    exact congrArg (Person.mk p.name) hrefs

end Person

end FilmCatalog
