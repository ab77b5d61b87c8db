/-
  FilmCatalog.Proofs.Titles.Originals
  ───────────────────────────────────
  **OF SEVERAL ORIGINAL TITLES ONE IS LEFT.**

  Titles that come in where there is none yet are taken one after the other.
  The first original title stays, and a further one meets it:

      mine      the first one stays, the new one is refused
      theirs    the new one drives the one before it out

  So all titles are taken that are not original, and of the original ones the
  first or the last (`reduced_merge_empty`).  Nothing is missing exactly if at
  most one title is original (`merge_empty_eq_iff`).
-/
import FilmCatalog.Proofs.Titles.Keeping
import FilmCatalog.Proofs.Titles.Outcome

namespace FilmCatalog.Titles

/-! ## §1. The title that is left. -/

/-- The tags of the original titles, in their order. -/
def originalTags (entries : List (String × Title)) : List String :=
  (entries.filter fun entry => entry.2.original).map (·.1)

/-- The tag of the original title that is left when all titles came in. -/
def survivor? (prefer : Preference) (entries : List (String × Title)) : Option String :=
  match prefer with
  | .mine => (originalTags entries).head?
  | .theirs => (originalTags entries).getLast?

/-- A tag is among the original ones if its title is original. -/
theorem mem_originalTags {entries : List (String × Title)} {tag : String} :
    tag ∈ originalTags entries ↔ ∃ title, (tag, title) ∈ entries ∧ title.original = true := by
  unfold originalTags
  simp

theorem mem_of_survivor? {prefer : Preference} {entries : List (String × Title)} {tag : String}
    (h : survivor? prefer entries = some tag) : tag ∈ originalTags entries := by
  cases prefer with
  | mine => exact List.mem_of_head? h
  | theirs => exact List.mem_of_getLast? h

/-- An original title is left unless none came in. -/
theorem survivor?_eq_none_iff {prefer : Preference} {entries : List (String × Title)} :
    survivor? prefer entries = none ↔ originalTags entries = [] := by
  cases prefer with
  | mine => exact List.head?_eq_none_iff
  | theirs => exact List.getLast?_eq_none_iff

section Append

variable {prefer : Preference} {entries : List (String × Title)} {entry : String × Title}

theorem originalTags_append_of_plain (h : entry.2.original = false) :
    originalTags (entries ++ [entry]) = originalTags entries := by
  unfold originalTags
  simp [List.filter_append, h]

theorem originalTags_append_of_original (h : entry.2.original = true) :
    originalTags (entries ++ [entry]) = originalTags entries ++ [entry.1] := by
  unfold originalTags
  simp [List.filter_append, h]

/-- A title that is not original has no part in which one is left. -/
theorem survivor?_append_of_plain (h : entry.2.original = false) :
    survivor? prefer (entries ++ [entry]) = survivor? prefer entries := by
  unfold survivor?
  rw [originalTags_append_of_plain h]

/-- The first original title is left with either preference. -/
theorem survivor?_append_of_first (h : entry.2.original = true)
    (hnone : survivor? prefer entries = none) :
    survivor? prefer (entries ++ [entry]) = some entry.1 := by
  unfold survivor?
  rw [originalTags_append_of_original h, survivor?_eq_none_iff.1 hnone]
  cases prefer with
  | mine => rfl
  | theirs => rfl

/-- The first original title is left if stored ones are preferred. -/
theorem survivor?_append_mine (h : entry.2.original = true) {tag : String}
    (hsome : survivor? .mine entries = some tag) :
    survivor? .mine (entries ++ [entry]) = some tag := by
  show (originalTags (entries ++ [entry])).head? = some tag
  rw [originalTags_append_of_original h, List.head?_append, show (originalTags entries).head?
    = some tag from hsome]
  rfl

/-- The last original title is left if incoming ones are preferred. -/
theorem survivor?_append_theirs (h : entry.2.original = true) :
    survivor? .theirs (entries ++ [entry]) = some entry.1 := by
  show (originalTags (entries ++ [entry])).getLast? = some entry.1
  rw [originalTags_append_of_original h, List.getLast?_concat]

end Append

/-! ## §2. One step. -/

/-- The titles hold what is left of the ones that came in: all of them, but only
one that is original. -/
def Reduced (prefer : Preference) (entries : List (String × Title)) (titles : Titles) : Prop :=
  ∀ tag title, SortedMap.get? titles tag = some title ↔
    (tag, title) ∈ entries ∧ (title.original = true → survivor? prefer entries = some tag)

section Step

variable {prefer : Preference} {entries : List (String × Title)} {titles : Titles}

/-- There is one original title at most, the one that is left. -/
theorem originalTag?_of_reduced (h : Reduced prefer entries titles) :
    originalTag? titles = survivor? prefer entries := by
  cases hsurvivor : survivor? prefer entries with
  | none =>
    cases htag : originalTag? titles with
    | none => rfl
    | some tag =>
      obtain ⟨⟨title, htitle, horiginal⟩, _⟩ := originalTag?_spec htag
      have hsome := ((h tag title).1 htitle).2 horiginal
      rw [hsurvivor] at hsome
      cases hsome
  | some tag =>
    obtain ⟨title, hmem, horiginal⟩ := mem_originalTags.1 (mem_of_survivor? hsurvivor)
    have htitle : SortedMap.get? titles tag = some title := (h tag title).2 ⟨hmem, fun _ => hsurvivor⟩
    refine originalTag?_eq_some htitle horiginal fun other found hfound hother => ?_
    have hsame := ((h other found).1 hfound).2 hother
    rw [hsurvivor] at hsame
    cases hsame
    exact String.le_refl tag

/-- What a map has after a new language is added. -/
theorem get?_insert_new {language : String} (hfree : SortedMap.get? titles language = none)
    (title : Title) {tag : String} {found : Title} :
    SortedMap.get? (SortedMap.insert titles language title) tag = some found ↔
      SortedMap.get? titles tag = some found ∨ (tag, found) = (language, title) := by
  rw [SortedMap.get?_insert, Prod.mk.injEq]
  by_cases hsame : language = tag
  · subst hsame
    simp [hfree, eq_comm]
  · simp [hsame, Ne.symm hsame]

variable {language : String} {title : Title}

/-- A title that is not original is added, and meets nobody. -/
theorem reduced_plain (hfree : SortedMap.get? titles language = none)
    (h : Reduced prefer entries titles) (hplain : title.original = false) :
    Reduced prefer (entries ++ [(language, title)]) (SortedMap.insert titles language title) := by
  intro tag found
  rw [get?_insert_new hfree, h tag found, survivor?_append_of_plain hplain, List.mem_append,
    List.mem_singleton]
  constructor
  · rintro (⟨hmem, hleft⟩ | hentry)
    · exact ⟨.inl hmem, hleft⟩
    · cases hentry
      exact ⟨.inr rfl, fun horiginal => absurd horiginal (by simp [hplain])⟩
  · rintro ⟨hmem | hentry, hleft⟩
    · exact .inl ⟨hmem, hleft⟩
    · exact .inr hentry

/-- The first original title is added: no title before it is original. -/
theorem reduced_first (hfree : SortedMap.get? titles language = none)
    (h : Reduced prefer entries titles) (horiginal : title.original = true)
    (hnone : survivor? prefer entries = none) :
    Reduced prefer (entries ++ [(language, title)]) (SortedMap.insert titles language title) := by
  have hplain : ∀ tag found, (tag, found) ∈ entries → ¬ found.original = true := by
    intro tag found hmem hfound
    have hlisted := mem_originalTags.2 ⟨found, hmem, hfound⟩
    rw [survivor?_eq_none_iff.1 hnone] at hlisted
    cases hlisted
  intro tag found
  rw [get?_insert_new hfree, h tag found, survivor?_append_of_first horiginal hnone,
    List.mem_append, List.mem_singleton]
  constructor
  · rintro (⟨hmem, _⟩ | hentry)
    · exact ⟨.inl hmem, fun hfound => absurd hfound (hplain tag found hmem)⟩
    · cases hentry
      exact ⟨.inr rfl, fun _ => rfl⟩
  · rintro ⟨hmem | hentry, _⟩
    · exact .inl ⟨hmem, fun hfound => absurd hfound (hplain tag found hmem)⟩
    · exact .inr hentry

/-- A further original title is refused. -/
theorem reduced_refused (hnew : language ∉ entries.map (·.1)) (h : Reduced .mine entries titles)
    (horiginal : title.original = true) {first : String}
    (hfirst : survivor? .mine entries = some first) :
    Reduced .mine (entries ++ [(language, title)]) titles := by
  intro tag found
  rw [h tag found, hfirst, survivor?_append_mine horiginal hfirst, List.mem_append,
    List.mem_singleton]
  constructor
  · rintro ⟨hmem, hleft⟩
    exact ⟨.inl hmem, hleft⟩
  · rintro ⟨hmem | hentry, hleft⟩
    · exact ⟨hmem, hleft⟩
    · -- The one that is left has another language.
      cases hentry
      obtain rfl := Option.some.inj (hleft horiginal)
      obtain ⟨old, hold, _⟩ := mem_originalTags.1 (mem_of_survivor? hfirst)
      exact absurd (List.mem_map_of_mem hold) hnew

/-- A further original title drives the one before it out. -/
theorem reduced_exchange (hkeys : (entries.map (·.1)).Nodup) (hnew : language ∉ entries.map (·.1))
    (hfree : SortedMap.get? titles language = none) (h : Reduced .theirs entries titles)
    (horiginal : title.original = true) {last : String}
    (hlast : survivor? .theirs entries = some last) :
    Reduced .theirs (entries ++ [(language, title)])
      (SortedMap.insert (SortedMap.erase titles last) language title) := by
  have herased : SortedMap.get? (SortedMap.erase titles last) language = none := by
    rw [SortedMap.get?_erase, hfree]
    simp
  obtain ⟨old, hold, holdOriginal⟩ := mem_originalTags.1 (mem_of_survivor? hlast)
  intro tag found
  rw [get?_insert_new herased, SortedMap.get?_erase, survivor?_append_theirs horiginal,
    List.mem_append, List.mem_singleton]
  constructor
  · rintro (hget | hentry)
    · have hne : last ≠ tag := by
        intro hsame
        rw [if_pos hsame] at hget
        cases hget
      rw [if_neg hne, h tag found, hlast] at hget
      exact ⟨.inl hget.1, fun hfound => absurd (Option.some.inj (hget.2 hfound)) hne⟩
    · cases hentry
      exact ⟨.inr rfl, fun _ => rfl⟩
  · rintro ⟨hmem | hentry, hleft⟩
    · have hplain : ¬ found.original = true := by
        intro hfound
        rw [← Option.some.inj (hleft hfound)] at hmem
        exact hnew (List.mem_map_of_mem hmem)
      -- The title that is driven out is original, so it is not this one.
      have hne : last ≠ tag := by
        rintro rfl
        have hsame := (Entries.get?_of_mem hkeys hold).symm.trans (Entries.get?_of_mem hkeys hmem)
        cases hsame
        exact hplain holdOriginal
      rw [if_neg hne]
      exact .inl ((h tag found).2 ⟨hmem, fun hfound => absurd hfound hplain⟩)
    · exact .inr hentry

/-- **A title in a new language comes in**, and what is left is left. -/
theorem reduced_mergeTitle (hkeys : (entries.map (·.1)).Nodup) (hnew : language ∉ entries.map (·.1))
    (h : Reduced prefer entries titles) :
    Reduced prefer (entries ++ [(language, title)]) (mergeTitle prefer titles language title).value := by
  have hfree : SortedMap.get? titles language = none := by
    refine Option.eq_none_iff_forall_ne_some.2 fun found hfound => ?_
    exact hnew (List.mem_map_of_mem ((h language found).1 hfound).1)
  unfold mergeTitle mergeNew
  rw [hfree, originalTag?_of_reduced h]
  cases horiginal : title.original with
  | false => exact reduced_plain hfree h horiginal
  | true =>
    simp only [if_true]
    cases hsurvivor : survivor? prefer entries with
    | none => exact reduced_first hfree h horiginal hsurvivor
    | some other =>
      cases prefer with
      | mine => exact reduced_refused hnew h horiginal hsurvivor
      | theirs => exact reduced_exchange hkeys hnew hfree h horiginal hsurvivor

end Step

/-! ## §3. All titles. -/

/-- **All steps leave what one step does**: the titles are reduced after every
run. -/
theorem reduced_run (prefer : Preference) (before after : List (String × Title))
    {merged : Merged Titles} (hkeys : ((before ++ after).map (·.1)).Nodup)
    (h : Reduced prefer before merged.value) :
    Reduced prefer (before ++ after) (Merged.run (mergeTitle prefer) after merged).value := by
  induction after generalizing before merged with
  | nil =>
    rw [List.append_nil]
    exact h
  | cons entry rest ih =>
    have hsplit : before ++ entry :: rest = (before ++ [entry]) ++ rest := by simp
    rw [hsplit] at hkeys ⊢
    rw [Merged.run_cons]
    refine ih (before ++ [entry]) hkeys ?_
    rw [List.map_append] at hkeys
    have hfirst : ((before ++ [entry]).map (·.1)).Nodup := (List.nodup_append.1 hkeys).1
    rw [List.map_append, List.map_singleton] at hfirst
    refine reduced_mergeTitle (List.nodup_append.1 hfirst).1 (fun hmem => ?_) h
    exact (List.nodup_append.1 hfirst).2.2 _ hmem _ (List.mem_singleton.2 rfl) rfl

/-- **What is left of titles that are merged into none.** -/
theorem reduced_merge_empty (prefer : Preference) (incoming : Titles) :
    Reduced prefer incoming.entries (merge prefer .empty incoming).value := by
  have hstart : Reduced prefer [] (Merged.keep SortedMap.empty).value := by
    intro tag title
    simp [Merged.keep]
  rw [merge_eq_run]
  exact reduced_run prefer [] incoming.entries (Entries.nodup_keys incoming.ascending) hstart

theorem originals_eq_length (titles : Titles) :
    originals titles = (originalTags titles.entries).length := by
  unfold originals originalTags
  rw [List.length_map, List.countP_eq_length_filter]

/-- A single original title is the one that is left. -/
theorem survivor?_of_single {prefer : Preference} {entries : List (String × Title)} {tag : String}
    (hsingle : (originalTags entries).length ≤ 1) (htag : tag ∈ originalTags entries) :
    survivor? prefer entries = some tag := by
  obtain ⟨other, hother⟩ : ∃ other, originalTags entries = [other] :=
    List.length_eq_one_iff.1 (Nat.le_antisymm hsingle (List.length_pos_of_mem htag))
  obtain rfl : tag = other := List.mem_singleton.1 (hother ▸ htag)
  unfold survivor?
  rw [hother]
  cases prefer with
  | mine => rfl
  | theirs => rfl

/-- If every original title is left, there is a single one at most. -/
theorem single_of_survivor? (prefer : Preference) {entries : List (String × Title)}
    (hkeys : (entries.map (·.1)).Nodup)
    (h : ∀ tag ∈ originalTags entries, survivor? prefer entries = some tag) :
    (originalTags entries).length ≤ 1 := by
  have hnodup : (originalTags entries).Nodup := ((List.filter_sublist).map _).nodup hkeys
  match htags : originalTags entries with
  | [] => simp
  | [tag] => simp
  | first :: second :: rest =>
    rw [htags] at h hnodup
    have hfirst := h first List.mem_cons_self
    have hsecond := h second (List.mem_cons_of_mem _ List.mem_cons_self)
    obtain rfl : first = second := Option.some.inj (hfirst.symm.trans hsecond)
    exact absurd List.mem_cons_self (List.nodup_cons.1 hnodup).1

/-- **Nothing is missing** if at most one title is original. -/
theorem merge_empty_eq_iff (prefer : Preference) (incoming : Titles) :
    (merge prefer .empty incoming).value = incoming ↔ originals incoming ≤ 1 := by
  have hreduced := reduced_merge_empty prefer incoming
  rw [originals_eq_length]
  constructor
  · intro h
    rw [h] at hreduced
    refine single_of_survivor? prefer (Entries.nodup_keys incoming.ascending) fun tag htag => ?_
    obtain ⟨title, hmem, horiginal⟩ := mem_originalTags.1 htag
    exact ((hreduced tag title).1 (SortedMap.get?_of_mem_entries hmem)).2 horiginal
  · intro hsingle
    refine SortedMap.ext_get? fun tag => Option.ext fun title => ?_
    rw [hreduced tag title, SortedMap.mem_entries_iff]
    refine and_iff_left_of_imp fun hget horiginal => ?_
    have hmem := SortedMap.mem_entries_iff.2 hget
    exact survivor?_of_single hsingle (mem_originalTags.2 ⟨title, hmem, horiginal⟩)

end FilmCatalog.Titles
