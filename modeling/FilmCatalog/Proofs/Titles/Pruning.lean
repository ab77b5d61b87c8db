/-
  FilmCatalog.Proofs.Titles.Pruning
  ─────────────────────────────────
  **WHEN MERGED TITLES HOLD AN UNNEEDED ORIGINAL.**

  Titles are pruned if an original title in an unknown language is the only
  original one; a load drops it otherwise.  With the preference `mine` a merge
  keeps titles pruned.  With `theirs` it need not: the title in the unknown
  language stays next to another one in two cases:

      Outlives    the stored one is not driven out by those that come in
      Joins       an incoming one drives out another title, or none

  and in no other (`pruned_merge_iff`).
-/
import Mathlib.Data.List.Basic
import FilmCatalog.Proofs.Titles.Marking

namespace FilmCatalog.Titles

open Translated

/-! ## §1. A stored title that stays. -/

/-- The stored original title in an unknown language is still there when all
titles came in: no incoming one is in an unknown language, the first original
one marks a stored title, and behind the unknown language no more original
titles are in new languages than there are before it in stored ones. -/
structure Outlives (stored incoming : Titles) : Prop where
  marked : Marked stored unknownOriginal
  untouched : SortedMap.get? incoming unknownOriginal = none
  met : ∃ tag, originalTag? incoming = some tag ∧ SortedMap.contains stored tag = true
  enough : ((added stored incoming.entries).filter (unknownOriginal < ·)).length
    ≤ ((raised stored incoming.entries).filter (· < unknownOriginal)).length

theorem takeAll_append (titles : Titles) (entries others : List (String × Title)) :
    takeAll titles (entries ++ others) = takeAll (takeAll titles entries) others :=
  List.foldl_append

theorem originalTags_append (entries others : List (String × Title)) :
    originalTags (entries ++ others) = originalTags entries ++ originalTags others := by
  unfold originalTags
  rw [List.filter_append, List.map_append]

/-- An original title comes in under a new tag or under one that is stored. -/
theorem length_originalTags (stored : Titles) (entries : List (String × Title)) :
    (originalTags entries).length
      = (added stored entries).length + (raised stored entries).length := by
  unfold added raised
  rw [Nat.add_comm]
  exact List.length_eq_length_filter_add _

/-- Entries are cut at the place of a key they do not hold. -/
theorem exists_cut {entries : List (String × Title)} (hascending : Entries.Ascending entries)
    {home : String} (hhome : home ∉ entries.map (·.1)) :
    ∃ low high, entries = low ++ high ∧ (∀ entry ∈ low, entry.1 < home) ∧
      ∀ entry ∈ high, home < entry.1 := by
  induction entries with
  | nil => exact ⟨[], [], rfl, by simp, by simp⟩
  | cons entry rest ih =>
    obtain ⟨hnext, hrest⟩ := List.pairwise_cons.1 hascending
    rw [List.map_cons, List.mem_cons, not_or] at hhome
    by_cases hbehind : home < entry.1
    · refine ⟨[], entry :: rest, rfl, by simp, List.forall_mem_cons.2 ⟨hbehind, ?_⟩⟩
      intro other hother
      exact String.lt_trans hbehind (hnext other hother)
    · obtain ⟨low, high, rfl, hlow, hhigh⟩ := ih hrest hhome.2
      refine ⟨entry :: low, high, rfl, List.forall_mem_cons.2 ⟨?_, hlow⟩, hhigh⟩
      exact Std.lt_of_le_of_ne (String.not_lt.1 hbehind) (Ne.symm hhome.1)

section Around

variable {stored : Titles} {home : String} {low high : List (String × Title)}

/-- **The queue around a single marked language**, if the first original title
is in a stored one. -/
theorem originalTags_takeAll_around (hhome : originalTags stored.entries = [home])
    (hascending : Entries.Ascending (low ++ high)) (hlow : ∀ entry ∈ low, entry.1 < home)
    (hhigh : ∀ entry ∈ high, home < entry.1)
    (hfirst : ∀ tag, (originalTags low).head? = some tag → SortedMap.contains stored tag = true) :
    ∃ kept : List String, kept.length = (raised stored low).length ∧ (∀ tag ∈ kept, tag < home) ∧
      originalTags (takeAll stored (low ++ high)).entries
        = (kept ++ home :: originalTags high).drop (added stored high).length := by
  obtain ⟨hbefore, hbehind, hbetween⟩ := List.pairwise_append.1 hascending
  have hkept : ∀ tag ∈ (originalTags low).drop (added stored low).length,
      ∃ title, (tag, title) ∈ low := by
    intro tag htag
    obtain ⟨title, hmem, _⟩ := mem_originalTags.1 (List.mem_of_mem_drop htag)
    exact ⟨title, hmem⟩
  -- The tags before the language join in front of it, those behind it at the end.
  have hleft : originalTags (takeAll stored low).entries
      = (originalTags low).drop (added stored low).length ++ [home] := by
    have hqueue : originalTags stored.entries = [] ++ [home] := hhome
    refine originalTags_takeAll hbefore hqueue ?_ ?_ (fun _ _ => rfl) (fun _ => hfirst)
    · simp
    · simpa using hlow
  have hcontains : ∀ entry ∈ high, SortedMap.contains (takeAll stored low) entry.1
      = SortedMap.contains stored entry.1 := by
    intro entry hentry
    have houtside : entry.1 ∉ low.map (·.1) := by
      intro hmem
      obtain ⟨other, hother, hsame⟩ := List.mem_map.1 hmem
      exact String.lt_irrefl _ (hsame ▸ hbetween other hother entry hentry)
    unfold SortedMap.contains
    rcases get?_takeAll stored houtside with hsame | ⟨_, hmarked⟩
    · rw [hsame]
    · have hmem := marked_iff_mem.1 hmarked
      rw [hhome, List.mem_singleton] at hmem
      exact absurd (hmem ▸ hhigh entry hentry) (String.lt_irrefl _)
  refine ⟨(originalTags low).drop (added stored low).length, ?_, ?_, ?_⟩
  · rw [List.length_drop, length_originalTags stored low]
    omega
  · intro tag htag
    obtain ⟨title, hmem⟩ := hkept tag htag
    exact hlow _ hmem
  · rw [takeAll_append]
    refine (originalTags_takeAll hbehind (hleft.trans (List.append_nil _).symm) ?_ ?_ hcontains
      ?_).trans ?_
    · intro entry hentry tag htag
      rcases List.mem_append.1 htag with htag | htag
      · obtain ⟨title, hmem⟩ := hkept tag htag
        exact hbetween _ hmem entry hentry
      · rw [List.mem_singleton.1 htag]
        exact hhigh entry hentry
    · simp
    · simp
    · simp

/-- The language stays marked if enough titles stand before it in the queue. -/
theorem marked_takeAll_around (hhome : originalTags stored.entries = [home])
    (hascending : Entries.Ascending (low ++ high)) (hlow : ∀ entry ∈ low, entry.1 < home)
    (hhigh : ∀ entry ∈ high, home < entry.1)
    (hfirst : ∀ tag, (originalTags low).head? = some tag → SortedMap.contains stored tag = true) :
    Marked (takeAll stored (low ++ high)) home
      ↔ (added stored high).length ≤ (raised stored low).length := by
  obtain ⟨kept, hlength, hkept, htags⟩ :=
    originalTags_takeAll_around hhome hascending hlow hhigh hfirst
  have hbehind : home ∉ originalTags high := by
    intro hmem
    obtain ⟨title, hentry, _⟩ := mem_originalTags.1 hmem
    exact String.lt_irrefl _ (hhigh _ hentry)
  rw [marked_iff_mem, htags, ← hlength, List.drop_append, List.mem_append]
  constructor
  · intro hmem
    refine Nat.le_of_not_lt fun hlt => ?_
    obtain ⟨more, hmore⟩ := Nat.exists_eq_add_of_lt hlt
    rcases hmem with hmem | hmem
    · exact String.lt_irrefl _ (hkept home (List.mem_of_mem_drop hmem))
    · rw [show (added stored high).length - kept.length = more + 1 by omega,
        List.drop_succ_cons] at hmem
      exact hbehind (List.mem_of_mem_drop hmem)
  · intro hle
    rw [Nat.sub_eq_zero_of_le hle]
    exact .inr List.mem_cons_self

end Around

/-- Pruned titles with a mark in the unknown language have no other one. -/
theorem originalTags_of_marked {titles : Titles} (hpruned : Pruned titles)
    (h : Marked titles unknownOriginal) : originalTags titles.entries = [unknownOriginal] := by
  refine originalTags_eq (List.pairwise_singleton _ _) fun tag => ?_
  rw [List.mem_singleton]
  constructor
  · intro htag
    exact pruned_iff.1 hpruned tag h htag
  · rintro rfl
    exact h

section Cut

variable {low high : List (String × Title)} {home : String} (p : String → Bool)

theorem exists_of_mem_filter {entries : List (String × Title)} {tag : String}
    (h : tag ∈ (originalTags entries).filter p) : ∃ title, (tag, title) ∈ entries := by
  obtain ⟨title, hmem, _⟩ := mem_originalTags.1 (List.mem_of_mem_filter h)
  exact ⟨title, hmem⟩

theorem filter_tags_self {entries : List (String × Title)} {q : String → Bool}
    (h : ∀ entry ∈ entries, q entry.1 = true) :
    ((originalTags entries).filter p).filter q = (originalTags entries).filter p := by
  refine List.filter_eq_self.2 fun tag htag => ?_
  obtain ⟨title, hmem⟩ := exists_of_mem_filter p htag
  exact h _ hmem

theorem filter_tags_nil {entries : List (String × Title)} {q : String → Bool}
    (h : ∀ entry ∈ entries, q entry.1 = false) :
    ((originalTags entries).filter p).filter q = [] := by
  refine List.filter_eq_nil_iff.2 fun tag htag => ?_
  obtain ⟨title, hmem⟩ := exists_of_mem_filter p htag
  rw [Bool.not_eq_true]
  exact h _ hmem

/-- Behind home stand the original tags of the entries behind it. -/
theorem filter_behind (hlow : ∀ entry ∈ low, entry.1 < home) (hhigh : ∀ entry ∈ high, home < entry.1) :
    ((originalTags (low ++ high)).filter p).filter (home < ·) = (originalTags high).filter p := by
  rw [originalTags_append, List.filter_append, List.filter_append, filter_tags_nil, filter_tags_self,
    List.nil_append]
  · exact fun entry hentry => decide_eq_true (hhigh entry hentry)
  · exact fun entry hentry => decide_eq_false (String.lt_asymm (hlow entry hentry))

/-- Before home stand those of the entries before it. -/
theorem filter_before (hlow : ∀ entry ∈ low, entry.1 < home) (hhigh : ∀ entry ∈ high, home < entry.1) :
    ((originalTags (low ++ high)).filter p).filter (· < home) = (originalTags low).filter p := by
  rw [originalTags_append, List.filter_append, List.filter_append, filter_tags_self, filter_tags_nil,
    List.append_nil]
  · exact fun entry hentry => decide_eq_false (String.lt_asymm (hhigh entry hentry))
  · exact fun entry hentry => decide_eq_true (hlow entry hentry)

end Cut

section Untouched

variable {stored incoming : Titles}
  (houtside : unknownOriginal ∉ incoming.entries.map (·.1))
include houtside

/-- If original titles come in, one of them is marked in the end. -/
theorem not_pruned_iff_marked (hsome : originalTags incoming.entries ≠ []) :
    ¬ Pruned (takeAll stored incoming.entries)
      ↔ Marked (takeAll stored incoming.entries) unknownOriginal := by
  constructor
  · intro hnot
    refine Classical.byContradiction fun hgone => ?_
    exact hnot (pruned_iff.2 fun tag hunknown _ => absurd hunknown hgone)
  · intro hunknown hpruned
    obtain ⟨tag, htag, hother⟩ := exists_marked_takeAll incoming.nodup_keys hsome
    rw [pruned_iff.1 hpruned tag hunknown hother] at htag
    exact houtside htag

/-- The stored title stays if the titles that drive others out are used up. -/
theorem marked_takeAll_iff_enough (hhome : originalTags stored.entries = [unknownOriginal])
    {first : String} (hfirst : (originalTags incoming.entries).head? = some first)
    (hcontains : SortedMap.contains stored first = true) :
    Marked (takeAll stored incoming.entries) unknownOriginal
      ↔ ((added stored incoming.entries).filter (unknownOriginal < ·)).length
        ≤ ((raised stored incoming.entries).filter (· < unknownOriginal)).length := by
  have hascending := incoming.ascending
  obtain ⟨low, high, hcut, hlow, hhigh⟩ := exists_cut hascending houtside
  rw [hcut] at hascending hfirst ⊢
  have hbehind : (added stored (low ++ high)).filter (unknownOriginal < ·) = added stored high :=
    filter_behind _ hlow hhigh
  have hbefore : (raised stored (low ++ high)).filter (· < unknownOriginal) = raised stored low :=
    filter_before _ hlow hhigh
  rw [hbehind, hbefore]
  refine marked_takeAll_around hhome hascending hlow hhigh fun tag htag => ?_
  rw [originalTags_append, List.head?_append, htag] at hfirst
  cases hfirst
  exact hcontains

end Untouched

/-- **A stored title in an unknown language that no incoming one replaces** is
left next to others exactly if it outlives the run. -/
theorem not_pruned_iff_outlives {stored incoming : Titles} (hstored : Pruned stored)
    (hmarked : Marked stored unknownOriginal)
    (huntouched : SortedMap.get? incoming unknownOriginal = none) :
    ¬ Pruned (takeAll stored incoming.entries) ↔ Outlives stored incoming := by
  have hhome := originalTags_of_marked hstored hmarked
  have houtside : unknownOriginal ∉ incoming.entries.map (·.1) := by
    intro hmem
    obtain ⟨title, htitle⟩ := SortedMap.mem_keys_iff.1 hmem
    rw [huntouched] at htitle
    cases htitle
  have hhead := originalTag?_eq_head? incoming
  cases hfirst : originalTag? incoming with
  | none =>
    -- No original title comes in, so no further language is marked.
    rw [hfirst, eq_comm, List.head?_eq_none_iff] at hhead
    refine iff_of_false (fun hnot => hnot (pruned_iff.2 fun tag _ htag => ?_)) ?_
    · have hold := (marked_takeAll_plain (plain_of_originalTags_eq_nil hhead)).1 htag
      exact pruned_iff.1 hstored tag hmarked hold.1
    · intro houtlives
      obtain ⟨tag, htag, _⟩ := houtlives.met
      rw [hfirst] at htag
      cases htag
  | some first =>
    rw [hfirst, eq_comm] at hhead
    have hsome : originalTags incoming.entries ≠ [] := List.ne_nil_of_mem (List.mem_of_mem_head? hhead)
    rw [not_pruned_iff_marked houtside hsome]
    cases hcontains : SortedMap.contains stored first with
    | false =>
      -- The first one drives the stored title out.
      have hnew : SortedMap.get? stored first = none := SortedMap.contains_eq_false_iff.1 hcontains
      refine iff_of_false (not_marked_takeAll hhome houtside incoming.nodup_keys hhead hnew) ?_
      intro houtlives
      obtain ⟨tag, htag, hthere⟩ := houtlives.met
      rw [hfirst] at htag
      cases htag
      rw [hcontains] at hthere
      cases hthere
    | true =>
      rw [marked_takeAll_iff_enough houtside hhome hhead hcontains]
      constructor
      · intro henough
        exact ⟨hmarked, huntouched, ⟨first, hfirst, hcontains⟩, henough⟩
      · intro houtlives
        exact houtlives.enough

/-! ## §2. An incoming title that comes next to others. -/

/-- An incoming original title in an unknown language comes next to a stored
one: no incoming title has the language of that one, and none is driven out, as
a stored title is in the unknown language too, or another one is driven out
first. -/
def Joins (stored incoming : Titles) : Prop :=
  Marked incoming unknownOriginal ∧
    ∃ tag, tag ≠ unknownOriginal ∧ Marked stored tag ∧ SortedMap.get? incoming tag = none ∧
      (SortedMap.contains stored unknownOriginal = true ∨
        ∃ other, Marked stored other ∧ other < tag ∧
          ¬ (SortedMap.contains incoming other = true ∧ other < unknownOriginal))

theorem contains_iff_mem {titles : Titles} {tag : String} :
    SortedMap.contains titles tag = true ↔ tag ∈ titles.entries.map (·.1) :=
  Option.isSome_iff_exists.trans SortedMap.mem_keys_iff.symm

/-- Titles are cut at a language they hold: the ones before it and the ones
behind it. -/
theorem exists_cut_at {titles : Titles} {home : String} {title : Title}
    (h : SortedMap.get? titles home = some title) :
    ∃ low high, titles.entries = low ++ (home, title) :: high ∧
      (∀ tag, tag ∈ low.map (·.1) ↔ SortedMap.contains titles tag = true ∧ tag < home) ∧
      ∀ tag, tag ∈ high.map (·.1) ↔ SortedMap.contains titles tag = true ∧ home < tag := by
  obtain ⟨low, high, hcut⟩ := List.append_of_mem (SortedMap.mem_entries_iff.2 h)
  have hkeys : titles.entries.map (·.1) = low.map (·.1) ++ home :: high.map (·.1) := by
    rw [hcut, List.map_append, List.map_cons]
  have hascending : (titles.entries.map (·.1)).Pairwise (· < ·) := titles.pairwise_keys
  rw [hkeys] at hascending
  obtain ⟨_, hbehind, hbetween⟩ := List.pairwise_append.1 hascending
  have hlow : ∀ tag ∈ low.map (·.1), tag < home :=
    fun tag htag => hbetween tag htag home List.mem_cons_self
  have hhigh : ∀ tag ∈ high.map (·.1), home < tag := (List.pairwise_cons.1 hbehind).1
  refine ⟨low, high, hcut, fun tag => ?_, fun tag => ?_⟩
  · rw [contains_iff_mem, hkeys, List.mem_append, List.mem_cons]
    constructor
    · exact fun htag => ⟨.inl htag, hlow tag htag⟩
    · rintro ⟨htag | rfl | htag, hlt⟩
      · exact htag
      · exact absurd hlt (String.lt_irrefl _)
      · exact absurd hlt (String.lt_asymm (hhigh tag htag))
  · rw [contains_iff_mem, hkeys, List.mem_append, List.mem_cons]
    constructor
    · exact fun htag => ⟨.inr (.inr htag), hhigh tag htag⟩
    · rintro ⟨htag | rfl | htag, hlt⟩
      · exact absurd hlt (String.lt_asymm (hlow tag htag))
      · exact absurd hlt (String.lt_irrefl _)
      · exact htag

/-- A marked language is not the first one if another is before it. -/
theorem originalTag?_ne_iff {titles : Titles} {tag : String} (htag : Marked titles tag) :
    originalTag? titles ≠ some tag ↔ ∃ other, Marked titles other ∧ other < tag := by
  obtain ⟨title, htitle, horiginal⟩ := htag
  constructor
  · intro hne
    refine Classical.byContradiction fun hnone => hne ?_
    refine originalTag?_eq_some htitle horiginal fun other found hfound hother => ?_
    exact fun hlt => hnone ⟨other, ⟨found, hfound, hother⟩, hlt⟩
  · rintro ⟨other, ⟨found, hfound, hother⟩, hlt⟩ hfirst
    exact (originalTag?_spec hfirst).2 other found hfound hother hlt

/-- **What a run with a single original title marks.** -/
theorem marked_takeAll_single {stored : Titles} {low high : List (String × Title)} {home : String}
    {title : Title} (hhome : home ∉ low.map (·.1) ∧ home ∉ high.map (·.1))
    (horiginal : title.original = true) (hlow : ∀ entry ∈ low, entry.2.original = false)
    (hhigh : ∀ entry ∈ high, entry.2.original = false) {tag : String} (hne : tag ≠ home) :
    Marked (takeAll stored (low ++ (home, title) :: high)) tag ↔
      Marked stored tag ∧ (tag ∉ low.map (·.1) ∧ tag ∉ high.map (·.1)) ∧
        (SortedMap.contains stored home = true ∨
          ∃ other, Marked stored other ∧ other < tag ∧ other ∉ low.map (·.1)) := by
  have hbefore : SortedMap.get? (takeAll stored low) home = none
      ↔ ¬ SortedMap.contains stored home = true := by
    rw [get?_takeAll_plain hlow hhome.1, Bool.not_eq_true, SortedMap.contains_eq_false_iff]
  rw [takeAll_append, takeAll_cons, marked_takeAll_plain hhigh, marked_take, if_neg hne, hbefore]
  constructor
  · rintro ⟨⟨hmarked, hstays⟩, houtside⟩
    obtain ⟨hstored, hfree⟩ := (marked_takeAll_plain hlow).1 hmarked
    refine ⟨hstored, ⟨hfree, houtside⟩, ?_⟩
    by_cases hcontains : SortedMap.contains stored home = true
    · exact .inl hcontains
    · have hfirst : originalTag? (takeAll stored low) ≠ some tag :=
        fun hfirst => hstays ⟨hcontains, horiginal, hfirst⟩
      obtain ⟨other, hother, hlt⟩ := (originalTag?_ne_iff hmarked).1 hfirst
      obtain ⟨hold, houtside⟩ := (marked_takeAll_plain hlow).1 hother
      exact .inr ⟨other, hold, hlt, houtside⟩
  · rintro ⟨hstored, ⟨hfree, houtside⟩, hreason⟩
    have hmarked := (marked_takeAll_plain hlow).2 ⟨hstored, hfree⟩
    refine ⟨⟨hmarked, ?_⟩, houtside⟩
    rintro ⟨hcontains, _, hfirst⟩
    rcases hreason with hthere | ⟨other, hold, hlt, hother⟩
    · exact hcontains hthere
    · have hearlier := (marked_takeAll_plain hlow).2 ⟨hold, hother⟩
      exact (originalTag?_ne_iff hmarked).2 ⟨other, hearlier, hlt⟩ hfirst

/-- **An incoming original title in an unknown language** is left next to others
exactly if it joins one. -/
theorem not_pruned_iff_joins {stored incoming : Titles} (hincoming : Pruned incoming)
    (hmarked : Marked incoming unknownOriginal) :
    ¬ Pruned (takeAll stored incoming.entries) ↔ Joins stored incoming := by
  obtain ⟨title, htitle, horiginal⟩ := id hmarked
  obtain ⟨low, high, hcut, hlow, hhigh⟩ := exists_cut_at htitle
  have hhome : unknownOriginal ∉ low.map (·.1) ∧ unknownOriginal ∉ high.map (·.1) := by
    rw [hlow, hhigh]
    exact ⟨fun h => String.lt_irrefl _ h.2, fun h => String.lt_irrefl _ h.2⟩
  -- No other incoming title is original.
  have hplain : ∀ entry ∈ incoming.entries, entry.1 ≠ unknownOriginal →
      entry.2.original = false := by
    intro entry hentry hne
    refine Bool.eq_false_iff.2 fun hother => hne ?_
    exact pruned_iff.1 hincoming entry.1 hmarked
      ⟨entry.2, SortedMap.get?_of_mem_entries hentry, hother⟩
  have hplainLow : ∀ entry ∈ low, entry.2.original = false := by
    intro entry hentry
    refine hplain entry (by simp [hcut, hentry]) fun heq => ?_
    exact hhome.1 (heq ▸ List.mem_map_of_mem hentry)
  have hplainHigh : ∀ entry ∈ high, entry.2.original = false := by
    intro entry hentry
    refine hplain entry (by simp [hcut, hentry]) fun heq => ?_
    exact hhome.2 (heq ▸ List.mem_map_of_mem hentry)
  have hunknown : Marked (takeAll stored incoming.entries) unknownOriginal := by
    rw [hcut, takeAll_append, takeAll_cons, marked_takeAll_plain hplainHigh, marked_take, if_pos rfl]
    exact ⟨horiginal, hhome.2⟩
  have hothers : ∀ {tag}, tag ≠ unknownOriginal →
      (SortedMap.get? incoming tag = none ↔ tag ∉ low.map (·.1) ∧ tag ∉ high.map (·.1)) := by
    intro tag hne
    rw [← SortedMap.contains_eq_false_iff, Bool.eq_false_iff, Ne, contains_iff_mem, hcut]
    simp [hne]
  constructor
  · intro hnot
    obtain ⟨tag, hne, htag⟩ : ∃ tag, tag ≠ unknownOriginal ∧
        Marked (takeAll stored incoming.entries) tag := by
      refine Classical.byContradiction fun hnone => hnot (pruned_iff.2 fun tag _ htag => ?_)
      exact Classical.byContradiction fun hne => hnone ⟨tag, hne, htag⟩
    rw [hcut, marked_takeAll_single hhome horiginal hplainLow hplainHigh hne] at htag
    obtain ⟨hstored, houtside, hreason⟩ := htag
    refine ⟨hmarked, tag, hne, hstored, (hothers hne).2 houtside, hreason.imp_right ?_⟩
    rintro ⟨other, hother, hlt, hfree⟩
    exact ⟨other, hother, hlt, (hlow other).not.1 hfree⟩
  · rintro ⟨_, tag, hne, hstored, houtside, hreason⟩ hpruned
    refine hne (pruned_iff.1 hpruned tag hunknown ?_)
    rw [hcut, marked_takeAll_single hhome horiginal hplainLow hplainHigh hne]
    refine ⟨hstored, (hothers hne).1 houtside, hreason.imp_right ?_⟩
    rintro ⟨other, hother, hlt, hfree⟩
    exact ⟨other, hother, hlt, (hlow other).not.2 hfree⟩

/-! ## §3. The merge. -/

/-- Titles that are not marked as unknown on the side that decides are pruned. -/
theorem pruned_takeAll_of_unmarked {stored incoming : Titles}
    (hincoming : ¬ Marked incoming unknownOriginal)
    (hstored : SortedMap.get? incoming unknownOriginal = none → ¬ Marked stored unknownOriginal) :
    Pruned (takeAll stored incoming.entries) := by
  refine pruned_iff.2 fun tag hunknown _ => absurd hunknown ?_
  cases htitle : SortedMap.get? incoming unknownOriginal with
  | none =>
    refine fun hmarked => hstored htitle (marked_of_marked_takeAll ?_ hmarked)
    rw [← contains_iff_mem, Bool.not_eq_true, SortedMap.contains_eq_false_iff]
    exact htitle
  | some title =>
    obtain ⟨low, high, hcut, _, hhigh⟩ := exists_cut_at htitle
    intro hmarked
    rw [hcut, takeAll_append, takeAll_cons] at hmarked
    have houtside : unknownOriginal ∉ high.map (·.1) := by
      rw [hhigh]
      exact fun h => String.lt_irrefl _ h.2
    have hstep := marked_of_marked_takeAll houtside hmarked
    rw [marked_take, if_pos rfl] at hstep
    exact hincoming ⟨title, htitle, hstep⟩

/-- A merge that prefers the stored titles leaves them pruned. -/
theorem pruned_merge_mine {stored : Titles} (h : Pruned stored) (incoming : Titles) :
    Pruned (merge .mine stored incoming).value := by
  rw [merge_eq_run]
  exact Merged.run_induction h fun entry _ titles htitles =>
    pruned_mergeTitle_mine htitles entry.1 entry.2

/-- **A merge keeps titles pruned, but for two cases** with the preference
`theirs`: a stored title in an unknown language outlives the incoming original
titles, or an incoming one joins a stored original title. -/
theorem pruned_merge_iff {stored incoming : Titles} (hstored : Pruned stored)
    (hincoming : Pruned incoming) (prefer : Preference) :
    Pruned (merge prefer stored incoming).value ↔
      (prefer = .theirs → ¬ Outlives stored incoming ∧ ¬ Joins stored incoming) := by
  cases prefer with
  | mine => exact iff_of_true (pruned_merge_mine hstored incoming) nofun
  | theirs =>
    rw [value_merge_theirs, forall_prop_of_true rfl]
    by_cases hmarked : Marked incoming unknownOriginal
    · have houtlives : ¬ Outlives stored incoming :=
        fun houtlives => not_marked_of_get? houtlives.untouched hmarked
      rw [← not_pruned_iff_joins hincoming hmarked, Classical.not_not, and_iff_right houtlives]
    · have hjoins : ¬ Joins stored incoming := fun hjoins => hmarked hjoins.1
      rw [and_iff_left hjoins]
      by_cases hhome : SortedMap.get? incoming unknownOriginal = none ∧ Marked stored unknownOriginal
      · rw [← not_pruned_iff_outlives hstored hhome.2 hhome.1, Classical.not_not]
      · refine iff_of_true (pruned_takeAll_of_unmarked hmarked fun hnone h => hhome ⟨hnone, h⟩) ?_
        exact fun houtlives => hhome ⟨houtlives.untouched, houtlives.marked⟩

/-- A film whose original language is not known, with a French title. -/
def unknownAndFrench : Titles :=
  SortedMap.insert (SortedMap.insert .empty unknownOriginal ⟨"Haut", none, true⟩) "fr"
    ⟨"Là-haut", none, false⟩

/-- The same film, found to be a French one. -/
def originalFrench : Titles := SortedMap.insert .empty "fr" ⟨"Là-haut", none, true⟩

/-- The same film, found to be a French and Italian one. -/
def originalFrenchAndItalian : Titles :=
  SortedMap.insert originalFrench "it" ⟨"Up", none, true⟩

/-- The Italian title drives out the one in the unknown language, after the
French one has not. -/
theorem pruned_merge_frenchAndItalian :
    Pruned unknownAndFrench ∧ Pruned originalFrenchAndItalian ∧
    Pruned (merge .theirs unknownAndFrench originalFrenchAndItalian).value := by
  have hstored : Pruned unknownAndFrench := by decide +kernel
  have hincoming : Pruned originalFrenchAndItalian := by decide +kernel
  have houtlives : ¬ Outlives unknownAndFrench originalFrenchAndItalian := by
    intro h
    -- One original title is new, and none marks a stored one before the unknown language.
    exact absurd h.enough (by decide +kernel)
  have hjoins : ¬ Joins unknownAndFrench originalFrenchAndItalian := by
    intro h
    exact absurd (marked_iff_mem.1 h.1) (by decide +kernel)
  exact ⟨hstored, hincoming,
    (pruned_merge_iff hstored hincoming .theirs).2 fun _ => ⟨houtlives, hjoins⟩⟩

/-- The stored French title is marked next to the one in the unknown language,
and both are left. -/
theorem not_pruned_merge_french :
    Forall Title.Normal unknownAndFrench ∧ Forall Title.Normal originalFrench ∧
    Pruned unknownAndFrench ∧ Pruned originalFrench ∧
    ¬ Pruned (merge .theirs unknownAndFrench originalFrench).value := by
  refine ⟨?_, ?_, ?_, ?_, ?_⟩
  · have hfirst : Forall Title.Normal (SortedMap.insert .empty unknownOriginal ⟨"Haut", none, true⟩) :=
      forall_insert forall_empty (Title.normal_of_sort_none rfl)
    exact forall_insert hfirst (Title.normal_of_sort_none rfl)
  · exact forall_insert forall_empty (Title.normal_of_sort_none rfl)
  · decide +kernel
  · decide +kernel
  · decide +kernel

end FilmCatalog.Titles
