/-
  FilmCatalog.Proofs.Titles.Marking
  ─────────────────────────────────
  **WHICH TITLES ARE ORIGINAL WHILE OTHERS COME IN.**

  With the preference `theirs` an incoming title marks the stored one of its
  language as original, or takes the mark from it, without a look at the others;
  an original one in a new language drives out the first original title.

  So the original tags are a queue.  As long as there is one, each step with an
  original title puts its tag in, and a step in a new language takes the first
  one out:

      originalTags (takeAll titles entries)
        = (front ++ originalTags entries).drop (number of new languages) ++ back

  where `front` and `back` are the tags before and behind those of the run.
-/
import FilmCatalog.Proofs.Titles.Originals

namespace FilmCatalog.Titles

/-! ## §1. Marked languages. -/

/-- The title of the language is an original one. -/
def Marked (titles : Titles) (tag : String) : Prop :=
  ∃ title, SortedMap.get? titles tag = some title ∧ title.original = true

/-- The marked languages are the tags of the original titles. -/
theorem marked_iff_mem {titles : Titles} {tag : String} :
    Marked titles tag ↔ tag ∈ originalTags titles.entries := by
  rw [mem_originalTags]
  simp only [SortedMap.mem_entries_iff]
  rfl

theorem marked_of_get? {titles : Titles} {tag : String} {title : Title}
    (h : SortedMap.get? titles tag = some title) :
    Marked titles tag ↔ title.original = true := by
  unfold Marked
  rw [h]
  simp

theorem not_marked_of_get? {titles : Titles} {tag : String}
    (h : SortedMap.get? titles tag = none) : ¬ Marked titles tag := by
  rintro ⟨title, htitle, _⟩
  rw [h] at htitle
  cases htitle

/-- A title in another language does not change whether a language is marked. -/
theorem marked_insert_of_ne {titles : Titles} {language tag : String} (hne : language ≠ tag)
    (title : Title) : Marked (SortedMap.insert titles language title) tag ↔ Marked titles tag := by
  unfold Marked
  rw [SortedMap.get?_insert_of_ne _ _ hne]

/-- The unknown language has an original title if it is marked. -/
theorem hasUnknownOriginal_iff {titles : Titles} :
    hasUnknownOriginal titles = true ↔ Marked titles unknownOriginal := by
  unfold hasUnknownOriginal
  split
  · rename_i title htitle
    exact (marked_of_get? htitle).symm
  · rename_i hnone
    simp [not_marked_of_get? hnone]

/-- There is an original title in a known language if one that is not the
unknown language is marked. -/
theorem hasKnownOriginal_iff {titles : Titles} :
    hasKnownOriginal titles = true ↔ ∃ tag, tag ≠ unknownOriginal ∧ Marked titles tag := by
  unfold hasKnownOriginal SortedMap.any
  rw [List.any_eq_true]
  constructor
  · rintro ⟨⟨tag, title⟩, hmem, h⟩
    obtain ⟨horiginal, hne⟩ := Bool.and_eq_true_iff.1 h
    exact ⟨tag, of_decide_eq_true hne, title, SortedMap.mem_entries_iff.1 hmem, horiginal⟩
  · rintro ⟨tag, hne, title, hget, horiginal⟩
    refine ⟨(tag, title), SortedMap.mem_entries_iff.2 hget, ?_⟩
    exact Bool.and_eq_true_iff.2 ⟨horiginal, decide_eq_true hne⟩

/-- Titles are pruned if no other language is marked next to the unknown one. -/
theorem pruned_iff {titles : Titles} :
    Pruned titles ↔ ∀ tag, Marked titles unknownOriginal → Marked titles tag →
      tag = unknownOriginal := by
  unfold Pruned
  rw [Bool.and_eq_false_imp, hasUnknownOriginal_iff, Bool.eq_false_iff, Ne, hasKnownOriginal_iff]
  constructor
  · intro h tag hunknown htag
    exact Decidable.by_contra fun hne => h hunknown ⟨tag, hne, htag⟩
  · rintro h hunknown ⟨tag, hne, htag⟩
    exact hne (h tag hunknown htag)

instance (titles : Titles) : Decidable (Pruned titles) :=
  inferInstanceAs (Decidable ((hasUnknownOriginal titles && hasKnownOriginal titles) = false))

/-- The tags of the original titles come in ascending order. -/
theorem pairwise_originalTags (titles : Titles) :
    (originalTags titles.entries).Pairwise (· < ·) :=
  List.Pairwise.sublist (List.filter_sublist.map _) titles.pairwise_keys

/-- The original tags of a map ascend, so they are decided by their members. -/
theorem originalTags_eq {titles : Titles} {tags : List String} (hascending : tags.Pairwise (· < ·))
    (hmem : ∀ tag, Marked titles tag ↔ tag ∈ tags) : originalTags titles.entries = tags := by
  have horiginal := pairwise_originalTags titles
  have hnodup : ∀ {list : List String}, list.Pairwise (· < ·) → list.Nodup := by
    intro list hlist
    refine hlist.imp ?_
    intro a b hab heq
    exact String.lt_irrefl b (heq ▸ hab)
  have hperm : (originalTags titles.entries).Perm tags := by
    refine (List.perm_ext_iff_of_nodup (hnodup horiginal) (hnodup hascending)).2 fun tag => ?_
    rw [← marked_iff_mem, hmem]
  refine List.Perm.eq_of_pairwise ?_ horiginal hascending hperm
  intro a b _ _ hab hba
  exact absurd hba (String.lt_asymm hab)

/-- The original tag is the first one of them. -/
theorem originalTag?_eq_head? (titles : Titles) :
    originalTag? titles = (originalTags titles.entries).head? := by
  unfold originalTag? originalTags
  rw [List.head?_map, List.head?_filter]

/-! ## §2. One step. -/

/-- With the preference `mine` a step marks a new language only, and only if
none is marked. -/
theorem marked_mergeTitle_mine {titles : Titles} {language tag : String} {title : Title}
    (h : Marked (mergeTitle .mine titles language title).value tag) :
    Marked titles tag ∨ (tag = language ∧ ∀ other, ¬ Marked titles other) := by
  obtain ⟨found, hfound, horiginal⟩ := h
  obtain ⟨current, hcurrent, hvalue⟩ | ⟨_, hfirst, hvalue⟩ | hvalue :=
    mergeTitle_mine_cases titles language title
  · -- A title that is there keeps its mark.
    rw [hvalue, SortedMap.get?_insert] at hfound
    split at hfound
    · rename_i hsame
      cases hfound
      have hmark : (current.merge .mine title).value.original = current.original :=
        Title.original_normalize _
      rw [hmark] at horiginal
      exact .inl ⟨current, hsame ▸ hcurrent, horiginal⟩
    · exact .inl ⟨found, hfound, horiginal⟩
  · rw [hvalue, SortedMap.get?_insert] at hfound
    split at hfound
    · rename_i hsame
      cases hfound
      refine .inr ⟨hsame.symm, fun other hother => ?_⟩
      have hnone := hfirst horiginal
      rw [originals_eq_length, List.length_eq_zero_iff] at hnone
      rw [marked_iff_mem, hnone] at hother
      cases hother
    · exact .inl ⟨found, hfound, horiginal⟩
  · rw [hvalue] at hfound
    exact .inl ⟨found, hfound, horiginal⟩

/-- A step that prefers the stored titles leaves them pruned. -/
theorem pruned_mergeTitle_mine {titles : Titles} (h : Pruned titles) (language : String)
    (title : Title) : Pruned (mergeTitle .mine titles language title).value := by
  rw [pruned_iff] at h ⊢
  intro tag hunknown htag
  rcases marked_mergeTitle_mine hunknown with hold | ⟨hlanguage, hnone⟩
  · rcases marked_mergeTitle_mine htag with htag | ⟨_, hnone⟩
    · exact h tag hold htag
    · exact absurd hold (hnone unknownOriginal)
  · rcases marked_mergeTitle_mine htag with htag | ⟨hsame, _⟩
    · exact absurd htag (hnone tag)
    · rw [hsame, hlanguage]

/-- **What a step with the preference `theirs` marks**: its own language as the
incoming title says; and of the others only the first is lost, to an original
title in a new language. -/
theorem marked_take {titles : Titles} {language tag : String} {title : Title} :
    Marked (take titles language title) tag ↔
      if tag = language then title.original = true
      else Marked titles tag ∧ ¬ (SortedMap.get? titles language = none ∧
        title.original = true ∧ originalTag? titles = some tag) := by
  by_cases hsame : tag = language
  · rw [if_pos hsame, hsame]
    cases hlanguage : SortedMap.get? titles language with
    | some current =>
      have hmark : (current.merge .theirs title).value.original = title.original :=
        Title.original_normalize _
      rw [take_of_some hlanguage, marked_of_get? (SortedMap.get?_insert_self _ _ _), hmark]
    | none => exact marked_of_get? (get?_take_new hlanguage title)
  · rw [if_neg hsame]
    have hne : language ≠ tag := Ne.symm hsame
    cases hlanguage : SortedMap.get? titles language with
    | some current =>
      rw [take_of_some hlanguage, marked_insert_of_ne hne]
      simp
    | none =>
      cases horiginal : title.original with
      | false =>
        rw [take_plain hlanguage (.inl horiginal), marked_insert_of_ne hne]
        simp
      | true =>
        cases hfirst : originalTag? titles with
        | none =>
          rw [take_plain hlanguage (.inr hfirst), marked_insert_of_ne hne]
          simp
        | some first =>
          -- The first original title is gone, and no other one.
          rw [take_original hlanguage horiginal hfirst, marked_insert_of_ne hne]
          unfold Marked
          rw [SortedMap.get?_erase]
          by_cases htag : first = tag
          · rw [if_pos htag]
            simp [htag]
          · rw [if_neg htag]
            simp [htag]

/-! ## §3. The original tags as a queue. -/

/-- The tags of original titles in languages that are not among the stored ones. -/
def added (stored : Titles) (entries : List (String × Title)) : List String :=
  (originalTags entries).filter fun tag => !SortedMap.contains stored tag

/-- The tags of original titles in stored languages. -/
def raised (stored : Titles) (entries : List (String × Title)) : List String :=
  (originalTags entries).filter fun tag => SortedMap.contains stored tag

/-- The original tags of the titles, cut at the place of a further language. -/
structure Queued (titles : Titles) (front back : List String) (language : String) : Prop where
  tags : originalTags titles.entries = front ++ back
  below : ∀ tag ∈ front, tag < language
  above : ∀ tag ∈ back, language < tag

section Queue

variable {titles : Titles} {front back : List String} {language : String} {title : Title}

/-- The marked languages are those in the queue. -/
theorem Queued.marked_iff (h : Queued titles front back language) (tag : String) :
    Marked titles tag ↔ tag ∈ front ++ back := by
  rw [marked_iff_mem, h.tags]

/-- The language at the cut is not marked itself. -/
theorem Queued.not_marked (h : Queued titles front back language) : ¬ Marked titles language := by
  rw [h.marked_iff, List.mem_append]
  rintro (hmem | hmem)
  · exact String.lt_irrefl _ (h.below _ hmem)
  · exact String.lt_irrefl _ (h.above _ hmem)

/-- The language fits between the tags before it, or some of them, and those
behind it. -/
theorem Queued.pairwise (h : Queued titles front back language) {kept : List String}
    (hkept : kept.Sublist front) : ((kept ++ [language]) ++ back).Pairwise (· < ·) := by
  have hall : (front ++ back).Pairwise (· < ·) := h.tags ▸ pairwise_originalTags titles
  obtain ⟨hbefore, hbehind, hbetween⟩ :=
    List.pairwise_append.1 (hall.sublist (hkept.append_right back))
  rw [List.append_assoc, List.singleton_append]
  refine List.pairwise_append.2 ⟨hbefore, List.pairwise_cons.2 ⟨h.above, hbehind⟩, ?_⟩
  intro tag htag other hother
  rcases List.mem_cons.1 hother with rfl | hother
  · exact h.below tag (hkept.subset htag)
  · exact hbetween tag htag other hother

/-- A title that is not original leaves the queue. -/
theorem Queued.take_plain (h : Queued titles front back language)
    (hplain : title.original = false) :
    originalTags (take titles language title).entries = front ++ back := by
  refine originalTags_eq (h.tags ▸ pairwise_originalTags titles) fun tag => ?_
  rw [marked_take, ← h.marked_iff]
  by_cases htag : tag = language
  · rw [if_pos htag, htag]
    simp [hplain, h.not_marked]
  · rw [if_neg htag]
    simp [hplain]

/-- An original title in a stored language joins the queue. -/
theorem Queued.take_raised (h : Queued titles front back language)
    (hcontains : SortedMap.contains titles language = true) (horiginal : title.original = true) :
    originalTags (take titles language title).entries = (front ++ [language]) ++ back := by
  refine originalTags_eq (h.pairwise (List.Sublist.refl front)) fun tag => ?_
  have hthere : SortedMap.get? titles language ≠ none := Option.isSome_iff_ne_none.1 hcontains
  rw [marked_take]
  by_cases htag : tag = language
  · rw [if_pos htag]
    simp [horiginal, htag]
  · rw [if_neg htag, h.marked_iff]
    simp [hthere, htag]

/-- An original title in a new language joins the queue, and the first of those
before it leaves. -/
theorem Queued.take_added {first : String} (h : Queued titles (first :: front) back language)
    (hcontains : SortedMap.contains titles language = false) (horiginal : title.original = true) :
    originalTags (take titles language title).entries = (front ++ [language]) ++ back := by
  refine originalTags_eq (h.pairwise (List.sublist_cons_self first front)) fun tag => ?_
  have hnone : SortedMap.get? titles language = none := SortedMap.contains_eq_false_iff.1 hcontains
  have hfirst : originalTag? titles = some first := by
    rw [originalTag?_eq_head?, h.tags]
    rfl
  -- The first tag stands in the queue once.
  have honce : first ∉ front ++ back := by
    have hall : ((first :: front) ++ back).Pairwise (· < ·) := h.tags ▸ pairwise_originalTags titles
    exact fun hmem => String.lt_irrefl first ((List.pairwise_cons.1 hall).1 first hmem)
  rw [marked_take]
  by_cases htag : tag = language
  · rw [if_pos htag]
    simp [horiginal, htag]
  · rw [if_neg htag, h.marked_iff, hnone, horiginal, hfirst]
    by_cases hsame : tag = first
    · subst hsame
      simpa [htag] using honce
    · simp [htag, hsame, Ne.symm hsame]

/-- A step leaves a language that is neither its own nor marked. -/
theorem contains_take {other : String} (hne : language ≠ other) (hplain : ¬ Marked titles other) :
    SortedMap.contains (take titles language title) other = SortedMap.contains titles other := by
  unfold SortedMap.contains
  rcases get?_take_other titles title hne with hsame | ⟨_, horiginal, _⟩
  · rw [hsame]
  · exact absurd (originalTag?_spec horiginal).1 hplain

/-- **The queue through a run** in languages between its two parts.  Each new
language takes the first tag out; the first original title must find one, or
be in a stored language itself. -/
theorem originalTags_takeAll {stored : Titles} {entries : List (String × Title)}
    (hascending : Entries.Ascending entries)
    (hqueue : originalTags titles.entries = front ++ back)
    (hbelow : ∀ entry ∈ entries, ∀ tag ∈ front, tag < entry.1)
    (habove : ∀ entry ∈ entries, ∀ tag ∈ back, entry.1 < tag)
    (hcontains : ∀ entry ∈ entries,
      SortedMap.contains titles entry.1 = SortedMap.contains stored entry.1)
    (hfirst : front = [] → ∀ tag, (originalTags entries).head? = some tag →
      SortedMap.contains stored tag = true) :
    originalTags (takeAll titles entries).entries
      = (front ++ originalTags entries).drop (added stored entries).length ++ back := by
  -- The front of the queue changes from step to step; what is behind the run does not.
  induction entries generalizing titles front with
  | nil => simpa [takeAll, added, originalTags] using hqueue
  | cons entry rest ih =>
    obtain ⟨language, title⟩ := entry
    obtain ⟨hnext, hrest⟩ := List.pairwise_cons.1 hascending
    obtain ⟨hbefore, hbelow⟩ := List.forall_mem_cons.1 hbelow
    obtain ⟨hbehind, habove⟩ := List.forall_mem_cons.1 habove
    obtain ⟨hhere, hcontains⟩ := List.forall_mem_cons.1 hcontains
    have hqueued : Queued titles front back language := ⟨hqueue, hbefore, hbehind⟩
    have hlater : ∀ later ∈ rest, SortedMap.contains (take titles language title) later.1
        = SortedMap.contains stored later.1 := by
      intro later hmem
      have hplace : Queued titles front back later.1 := ⟨hqueue, hbelow later hmem, habove later hmem⟩
      have hne : language ≠ later.1 := fun heq => String.lt_irrefl _ (heq ▸ hnext later hmem)
      rw [contains_take hne hplace.not_marked, hcontains later hmem]
    have hjoined : ∀ kept : List String, kept.Sublist front →
        ∀ later ∈ rest, ∀ tag ∈ kept ++ [language], tag < later.1 := by
      intro kept hkept later hmem tag htag
      rcases List.mem_append.1 htag with htag | htag
      · exact hbelow later hmem tag (hkept.subset htag)
      · rw [List.mem_singleton.1 htag]
        exact hnext later hmem
    rw [takeAll_cons]
    cases horiginal : title.original with
    | false =>
      have htags : originalTags ((language, title) :: rest) = originalTags rest := by
        simp [originalTags, horiginal]
      unfold added at ih ⊢
      rw [htags] at hfirst ⊢
      exact ih hrest (hqueued.take_plain horiginal) hbelow habove hlater hfirst
    | true =>
      have htags : originalTags ((language, title) :: rest) = language :: originalTags rest := by
        simp [originalTags, horiginal]
      unfold added at ih ⊢
      rw [htags] at hfirst ⊢
      cases hstored : SortedMap.contains stored language with
      | true =>
        have hrun := ih hrest (hqueued.take_raised (hhere.trans hstored) horiginal)
          (hjoined front (List.Sublist.refl front)) habove hlater (by simp)
        rw [hrun, List.filter_cons_of_neg (by simp [hstored])]
        simp
      | false =>
        cases front with
        | nil =>
          rw [hfirst rfl language rfl] at hstored
          cases hstored
        | cons first others =>
          have hrun := ih hrest (hqueued.take_added (hhere.trans hstored) horiginal)
            (hjoined others (List.sublist_cons_self first others)) habove hlater (by simp)
          rw [hrun, List.filter_cons_of_pos (by simp [hstored])]
          simp

end Queue

/-! ## §4. Other runs. -/

section Runs

variable {titles : Titles} {entries : List (String × Title)} {tag : String}

theorem plain_of_originalTags_eq_nil (h : originalTags entries = []) :
    ∀ entry ∈ entries, entry.2.original = false := by
  simpa [originalTags] using h

/-- A run marks no language but its own. -/
theorem marked_of_marked_takeAll (htag : tag ∉ entries.map (·.1))
    (h : Marked (takeAll titles entries) tag) : Marked titles tag := by
  obtain ⟨title, htitle, horiginal⟩ := h
  rcases get?_takeAll titles htag with hsame | ⟨hnone, _⟩
  · exact ⟨title, hsame ▸ htitle, horiginal⟩
  · rw [hnone] at htitle
    cases htitle

/-- A single marked language is lost if the first original title is in a new
one. -/
theorem not_marked_takeAll {home first : String} (hhome : originalTags titles.entries = [home])
    (houtside : home ∉ entries.map (·.1)) (hkeys : (entries.map (·.1)).Nodup)
    (hfirst : (originalTags entries).head? = some first)
    (hnew : SortedMap.get? titles first = none) : ¬ Marked (takeAll titles entries) home := by
  induction entries generalizing titles with
  | nil => cases hfirst
  | cons entry rest ih =>
    obtain ⟨language, title⟩ := entry
    rw [List.map_cons, List.mem_cons, not_or] at houtside
    obtain ⟨hother, hrest⟩ := List.nodup_cons.1 hkeys
    rw [takeAll_cons]
    cases horiginal : title.original with
    | true =>
      -- The title drives the single one out, and it does not come back.
      have hlanguage : language = first := by
        simpa [originalTags, horiginal] using hfirst
      intro hmarked
      have hstep := marked_of_marked_takeAll houtside.2 hmarked
      rw [marked_take, if_neg houtside.1] at hstep
      refine hstep.2 ⟨hlanguage ▸ hnew, horiginal, ?_⟩
      rw [originalTag?_eq_head?, hhome]
      rfl
    | false =>
      have htags : (originalTags rest).head? = some first := by
        simpa [originalTags, horiginal] using hfirst
      have hmem : first ∈ rest.map (·.1) := by
        obtain ⟨found, hfound, _⟩ := mem_originalTags.1 (List.mem_of_head? htags)
        exact List.mem_map_of_mem hfound
      have hne : language ≠ first := fun heq => hother (heq ▸ hmem)
      refine ih ?_ houtside.2 hrest htags ?_
      · refine originalTags_eq (List.pairwise_singleton _ _) fun other => ?_
        rw [marked_take, marked_iff_mem, hhome]
        by_cases hsame : other = language
        · rw [if_pos hsame, hsame]
          simp [horiginal, Ne.symm houtside.1]
        · rw [if_neg hsame]
          simp [horiginal]
      · rcases get?_take_other titles title hne with hsame | ⟨hnone, _⟩
        · rw [hsame, hnew]
        · exact hnone

/-- Titles that are not original come in, and all others stay. -/
theorem get?_takeAll_plain (hplain : ∀ entry ∈ entries, entry.2.original = false)
    (htag : tag ∉ entries.map (·.1)) :
    SortedMap.get? (takeAll titles entries) tag = SortedMap.get? titles tag := by
  induction entries generalizing titles with
  | nil => rfl
  | cons entry rest ih =>
    obtain ⟨hentry, hrest⟩ := List.forall_mem_cons.1 hplain
    rw [List.map_cons, List.mem_cons, not_or] at htag
    rw [takeAll_cons, ih hrest htag.2]
    cases hlanguage : SortedMap.get? titles entry.1 with
    | some current =>
      rw [take_of_some hlanguage, SortedMap.get?_insert_of_ne _ _ (Ne.symm htag.1)]
    | none =>
      rw [take_plain hlanguage (.inl hentry), SortedMap.get?_insert_of_ne _ _ (Ne.symm htag.1)]

/-- Titles that are not original take the mark from their languages. -/
theorem marked_takeAll_plain (hplain : ∀ entry ∈ entries, entry.2.original = false) :
    Marked (takeAll titles entries) tag ↔ Marked titles tag ∧ tag ∉ entries.map (·.1) := by
  induction entries generalizing titles with
  | nil => simp [takeAll]
  | cons entry rest ih =>
    obtain ⟨hentry, hrest⟩ := List.forall_mem_cons.1 hplain
    rw [takeAll_cons, ih hrest, marked_take]
    by_cases hsame : tag = entry.1
    · simp [hsame, hentry]
    · simp [hsame, hentry]

/-- The last original title that came in is still marked. -/
theorem exists_marked_takeAll (hkeys : (entries.map (·.1)).Nodup) (h : originalTags entries ≠ []) :
    ∃ tag ∈ entries.map (·.1), Marked (takeAll titles entries) tag := by
  induction entries generalizing titles with
  | nil => exact absurd rfl h
  | cons entry rest ih =>
    obtain ⟨hnew, hrest⟩ := List.nodup_cons.1 hkeys
    rw [takeAll_cons]
    by_cases hlast : originalTags rest = []
    · have hplain : ∀ later ∈ rest, later.2.original = false := plain_of_originalTags_eq_nil hlast
      refine ⟨entry.1, List.mem_cons_self, (marked_takeAll_plain hplain).2 ⟨?_, hnew⟩⟩
      rw [marked_take, if_pos rfl]
      refine Decidable.by_contra fun hfalse => h ?_
      simpa [originalTags, hfalse] using hlast
    · obtain ⟨tag, htag, hmarked⟩ : ∃ tag ∈ rest.map (·.1),
          Marked (takeAll (take titles entry.1 entry.2) rest) tag := ih hrest hlast
      exact ⟨tag, List.mem_cons_of_mem _ htag, hmarked⟩

end Runs

end FilmCatalog.Titles
