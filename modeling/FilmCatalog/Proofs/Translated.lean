/-
  FilmCatalog.Proofs.Translated
  ─────────────────────────────
  **THE ORDER IN WHICH LANGUAGES ARE TRIED.**

  A lookup tries tags one after the other and stops at the first that has an
  entry.  Each lookup is described by the tags that it tries (`Finds`):

      find?     the tag and its cuts, "", "en-US", "en"
      findAny?  the tags of the list, "", "en-US", "en"

  The lookups do not go down these lists as they stand: they hand over to one
  another (`HandsOver`).  The English fallback asks for the value without a
  language a second time, and a list that names both English tags is not
  followed by the fallback at all.  Neither makes a difference: the second
  question has the answer of the first, and tags that were tried in vain need
  not be tried again.  But without the second rule the list of English tags
  would hand over to itself for ever.
-/
import Mathlib.Data.List.DropRight
import Mathlib.Data.List.Iterate
import FilmCatalog.Proofs.SortedMap
import FilmCatalog.Proofs.Text
import FilmCatalog.Translated

namespace FilmCatalog.Translated

variable {α : Type} {m : Translated α}

/-! ## §1. The first tag that has an entry. -/

/-- What is found when some tags are tried in order: the entry of the first tag
that has one, and nothing if none has. -/
def Finds (m : Translated α) (tags : List String) : Option (String × α) → Prop
  | some (tag, value) => ∃ before after, tags = before ++ tag :: after ∧
      (∀ other ∈ before, other ∉ SortedMap.keys m) ∧ (tag, value) ∈ SortedMap.entries m
  | none => ∀ tag ∈ tags, tag ∉ SortedMap.keys m

/-- The entry under a tag is the one that the map holds for it. -/
theorem under?_eq_some_iff {tag : String} {found : String × α} :
    under? m tag = some found ↔ found.1 = tag ∧ found ∈ SortedMap.entries m := by
  obtain ⟨key, value⟩ := found
  unfold under?
  rw [SortedMap.mem_entries_iff, Option.map_eq_some_iff]
  constructor
  · intro h
    obtain ⟨value, hvalue, rfl, rfl⟩ := h
    exact ⟨rfl, hvalue⟩
  · intro h
    obtain ⟨rfl, hvalue⟩ := h
    exact ⟨value, hvalue, rfl⟩

/-- There is no entry under a tag that is no key. -/
theorem under?_eq_none_iff {tag : String} : under? m tag = none ↔ tag ∉ SortedMap.keys m := by
  unfold under?
  rw [Option.map_eq_none_iff, Option.eq_none_iff_forall_ne_some, SortedMap.mem_keys_iff, not_exists]

namespace Finds

variable {tags others : List String} {found : Option (String × α)}

theorem nil (m : Translated α) : Finds m [] none := by
  intro tag htag
  cases htag

theorem of_entry {tag : String} {entry : String × α} (h : under? m tag = some entry)
    (rest : List String) : Finds m (tag :: rest) (some entry) := by
  obtain ⟨rfl, hentry⟩ := under?_eq_some_iff.1 h
  exact ⟨[], rest, rfl, fun _ hother => absurd hother List.not_mem_nil, hentry⟩

/-- Tags behind the one that was found are not tried. -/
theorem append {entry : String × α} (h : Finds m tags (some entry)) (others : List String) :
    Finds m (tags ++ others) (some entry) := by
  obtain ⟨before, after, rfl, hbefore, hentry⟩ := h
  exact ⟨before, after ++ others, List.append_assoc .., hbefore, hentry⟩

/-- Where the first tags have no entry, the others decide. -/
theorem append_of_none (h : Finds m tags none) (hothers : Finds m others found) :
    Finds m (tags ++ others) found := by
  cases found with
  | none =>
    intro tag htag
    exact (List.mem_append.1 htag).elim (h tag) (hothers tag)
  | some entry =>
    obtain ⟨before, after, rfl, hbefore, hentry⟩ := hothers
    refine ⟨tags ++ before, after, (List.append_assoc ..).symm, fun other hother => ?_, hentry⟩
    exact (List.mem_append.1 hother).elim (h other) (hbefore other)

/-- A tag without an entry is passed over. -/
theorem cons_of_none {tag : String} (htag : under? m tag = none) (hothers : Finds m others found) :
    Finds m (tag :: others) found := by
  have hone : Finds m [tag] none := by
    intro other hother
    rw [List.mem_singleton.1 hother]
    exact under?_eq_none_iff.1 htag
  exact hone.append_of_none hothers

/-- What is found first is the answer, and the others are tried only in its
absence. -/
theorem or {rest : Option (String × α)} (h : Finds m tags found)
    (hrest : found = none → Finds m others rest) : Finds m (tags ++ others) (found.or rest) := by
  cases found with
  | some entry => exact h.append others
  | none => exact h.append_of_none (hrest rfl)

/-- Nothing is found exactly if no tag has an entry. -/
theorem eq_none_iff (h : Finds m tags found) :
    found = none ↔ ∀ tag ∈ tags, tag ∉ SortedMap.keys m := by
  cases found with
  | none => exact ⟨fun _ => h, fun _ => rfl⟩
  | some entry =>
    obtain ⟨before, after, rfl, _, hentry⟩ := h
    refine ⟨fun hnone => absurd hnone (Option.some_ne_none entry), fun hnone => ?_⟩
    refine absurd (List.mem_map_of_mem hentry) (hnone entry.1 ?_)
    exact List.mem_append_right _ List.mem_cons_self

end Finds

theorem finds_under? (m : Translated α) (tag : String) : Finds m [tag] (under? m tag) := by
  cases htag : under? m tag with
  | some entry => exact .of_entry htag []
  | none => exact .cons_of_none htag (.nil m)

/-- Tags that are tried in order find the entry of the first one that has any. -/
theorem finds_firstOf? (m : Translated α) (tags : List String) :
    Finds m tags <| firstOf? m tags := by
  induction tags with
  | nil => exact .nil m
  | cons tag rest ih =>
    rw [firstOf?]
    cases htag : under? m tag with
    | some entry => exact .of_entry htag rest
    | none => exact .cons_of_none htag ih

/-! ## §2. Lists of tags. -/

/-- The fallback is the lookup of the English tags as a list. -/
theorem fallback?_eq (m : Translated α) : fallback? m = findAny? m ["en-US", "en"] := by
  unfold fallback? findAny?
  conv => lhs; rw [run?]

/-- **A list of tags is tried first, then the default one, then the fallback**
unless the list has both of its tags. -/
theorem findAny?_eq (m : Translated α) (tags : List String) :
    findAny? m tags = (firstOf? m tags).or ((under? m defaultTag).or
      (if "en-US" ∈ tags ∧ "en" ∈ tags then none else fallback? m)) := by
  unfold findAny? fallback?
  rw [run?]
  cases firstOf? m tags with
  | some found => rfl
  | none => cases under? m defaultTag <;> rfl

/-- Without a value for no language, the fallback is down to the English
tags. -/
theorem finds_fallback? (h : under? m defaultTag = none) :
    Finds m ["en-US", "en"] (fallback? m) := by
  have hcovered : "en-US" ∈ ["en-US", "en"] ∧ "en" ∈ ["en-US", "en"] := by decide
  rw [fallback?_eq, findAny?_eq, h, if_pos hcovered, Option.none_or, Option.or_none]
  exact finds_firstOf? m _

/-- **A list of tags is tried in its order**, and then come the value without a
language and the English ones. -/
theorem finds_findAny? (m : Translated α) (tags : List String) :
    Finds m (tags ++ ["", "en-US", "en"]) (findAny? m tags) := by
  have htags := finds_firstOf? m tags
  rw [findAny?_eq]
  refine htags.or fun hfirst => (finds_under? m defaultTag).or fun hdefault => ?_
  split
  · -- Both English tags were in the list and had no entry.
    rename_i henglish
    have hvain := htags.eq_none_iff.1 hfirst
    intro tag htag
    rcases List.mem_cons.1 htag with rfl | htag
    · exact hvain _ henglish.1
    · rw [List.mem_singleton.1 htag]
      exact hvain _ henglish.2
  · exact finds_fallback? hdefault

/-! ## §3. The cuts of a tag. -/

/-- A tag without its last dash and what follows it; nothing is left of a tag
without a dash. -/
def cut (tag : String) : String :=
  String.ofList (tag.toList.rdropWhile (· ≠ '-')).dropLast

/-- A tag and what is left of it when it is cut again and again, as long as
something is left. -/
def cuts (tag : String) : List String :=
  (List.iterate cut tag tag.length).takeWhile (· ≠ "")

example : cuts "zh--Hant-" = ["zh--Hant-", "zh--Hant", "zh-", "zh"] := by decide +kernel

/-- A tag is cut at its last dash. -/
theorem shorten_eq (tag : List Char) : shorten tag = (tag.rdropWhile (· ≠ '-')).dropLast := by
  by_cases hdash : '-' ∈ tag
  · obtain ⟨before, after, rfl, hafter⟩ := Text.exists_last hdash
    -- Read from the end, the last part goes up to the dash.
    have hlast : (before ++ '-' :: after).rdropWhile (· ≠ '-') = before ++ ['-'] := by
      have hpart : ∀ c ∈ after.reverse, decide (c ≠ '-') = true := by
        intro c hc
        exact decide_eq_true fun heq => hafter (heq ▸ List.mem_reverse.1 hc)
      unfold List.rdropWhile
      rw [List.reverse_append, List.reverse_cons, List.append_assoc,
        List.dropWhile_append_of_pos hpart]
      simp
    unfold shorten
    rw [Text.splitLast_append before hafter, hlast, List.dropLast_concat]
  · have hall : tag.rdropWhile (· ≠ '-') = [] := by
      refine List.rdropWhile_eq_nil_iff.2 fun c hc => decide_eq_true fun heq => hdash (heq ▸ hc)
    unfold shorten
    rw [Text.splitLast_eq_none hdash, hall]
    rfl

theorem toList_cut (tag : String) : (cut tag).toList = shorten tag.toList := by
  unfold cut
  rw [String.toList_ofList, shorten_eq]

theorem findShortened?_nil (m : Translated α) : findShortened? m "".toList = none := by
  rw [String.toList_empty, findShortened?]

/-- Each round of the lookup is one cut; as many rounds as the tag has
characters are enough. -/
theorem finds_findShortened? (m : Translated α) {tag : String} {rounds : Nat}
    (h : tag.length ≤ rounds) :
    Finds m ((List.iterate cut tag rounds).takeWhile (· ≠ "")) (findShortened? m tag.toList) := by
  induction rounds generalizing tag with
  | zero =>
    have hempty : tag = "" := String.length_eq_zero_iff.1 (Nat.le_zero.1 h)
    rw [hempty, findShortened?_nil]
    exact .nil m
  | succ rounds ih =>
    rw [List.iterate]
    by_cases hempty : tag = ""
    · rw [hempty, findShortened?_nil, List.takeWhile_cons_of_neg (by simp)]
      exact .nil m
    · -- The tag is tried itself; its cut is shorter, so one round less will do for it.
      have hsome : tag.toList ≠ [] := fun hnil => hempty (String.toList_eq_nil_iff.1 hnil)
      have hshorter : (cut tag).length ≤ rounds := by
        have hlt := length_shorten_lt hsome
        rw [← toList_cut, String.length_toList, String.length_toList] at hlt
        omega
      obtain ⟨c, rest, hchars⟩ := List.exists_cons_of_ne_nil hsome
      rw [List.takeWhile_cons_of_pos (by simpa using hempty), hchars, findShortened?, ← hchars,
        String.ofList_toList, ← toList_cut]
      cases htag : under? m tag with
      | some entry => exact .of_entry htag _
      | none => exact .cons_of_none htag (ih hshorter)

/-- **A tag is tried with all its cuts, then the default one, then the
fallback.** -/
theorem find?_eq (m : Translated α) (tag : String) :
    find? m tag = (findShortened? m tag.toList).or ((under? m defaultTag).or (fallback? m)) := by
  unfold find? fallback?
  rw [run?]
  cases findShortened? m tag.toList with
  | some found => rfl
  | none => cases under? m defaultTag <;> rfl

/-- **A tag is tried with all its cuts**, and then come the value without a
language and the English ones. -/
theorem finds_find? (m : Translated α) (tag : String) :
    Finds m (cuts tag ++ ["", "en-US", "en"]) (find? m tag) := by
  have hcuts : Finds m (cuts tag) (findShortened? m tag.toList) :=
    finds_findShortened? m (Nat.le_refl _)
  rw [find?_eq]
  exact hcuts.or fun _ => (finds_under? m defaultTag).or finds_fallback?

/-! ## §4. From one lookup to the next. -/

/-- A lookup leaves the answer to another one.  It has tried its own tags and
the one without a language in vain, and a list hands over only if it does not
name both English tags. -/
inductive HandsOver (m : Translated α) : Lookup → Lookup → Prop
  | tag {tag : String} (htag : ∀ key ∈ cuts tag ++ [""], key ∉ SortedMap.keys m) :
      HandsOver m (.tag tag) .fallback
  | any {tags : List String} (htags : ∀ key ∈ tags ++ [""], key ∉ SortedMap.keys m)
      (huncovered : ¬ ("en-US" ∈ tags ∧ "en" ∈ tags)) : HandsOver m (.any tags) .fallback
  | fallback : HandsOver m .fallback (.any ["en-US", "en"])

/-- With each step there is one less to come. -/
theorem HandsOver.handOvers_lt {lookup next : Lookup} (h : HandsOver m lookup next) :
    next.handOvers < lookup.handOvers := by
  cases h with
  | tag htag => exact Nat.one_lt_two
  | any htags huncovered =>
    rw [Lookup.handOvers, Lookup.handOvers, if_neg huncovered]
    exact Nat.one_lt_two
  | fallback => decide

/-- **Every lookup comes to an end.** -/
theorem wellFounded_handsOver (m : Translated α) :
    WellFounded fun next lookup => HandsOver m lookup next :=
  Subrelation.wf (fun h => HandsOver.handOvers_lt h) (measure Lookup.handOvers).wf

/-- The answer is the one of the lookup that is handed over to. -/
theorem HandsOver.run?_eq {lookup next : Lookup} (h : HandsOver m lookup next) :
    run? m lookup = run? m next := by
  cases h with
  | @tag tag htag =>
    obtain ⟨hcuts, hdefault⟩ := List.forall_mem_append.1 htag
    have hshort := (finds_findShortened? m (Nat.le_refl tag.length)).eq_none_iff.2 hcuts
    have hnone := (finds_under? m defaultTag).eq_none_iff.2 hdefault
    show find? m tag = fallback? m
    rw [find?_eq, hshort, hnone, Option.none_or, Option.none_or]
  | @any tags htags huncovered =>
    obtain ⟨hlist, hdefault⟩ := List.forall_mem_append.1 htags
    have hfirst := (finds_firstOf? m tags).eq_none_iff.2 hlist
    have hnone := (finds_under? m defaultTag).eq_none_iff.2 hdefault
    show findAny? m tags = fallback? m
    rw [findAny?_eq, hfirst, hnone, if_neg huncovered, Option.none_or, Option.none_or]
  | fallback => exact fallback?_eq m

/-! ## §5. All lookups. -/

/-- **The order of the fallbacks.**  A lookup by a tag tries the tag, its cuts,
the value without a language and the English ones; a lookup by a list has the
list in place of the cuts.  The first entry on the way is the answer, and there
is none exactly if no tag on the way has one.  The fallback itself is a lookup
by the list of English tags.  Where a lookup hands over to another one, it has
the answer of that one, and no chain of lookups goes on for ever. -/
theorem lookup_order (m : Translated α) :
    (∀ tag, Finds m (cuts tag ++ ["", "en-US", "en"]) (find? m tag) ∧
      (find? m tag = none ↔ ∀ key ∈ cuts tag ++ ["", "en-US", "en"], key ∉ SortedMap.keys m)) ∧
    (∀ tags, Finds m (tags ++ ["", "en-US", "en"]) (findAny? m tags) ∧
      (findAny? m tags = none ↔ ∀ key ∈ tags ++ ["", "en-US", "en"], key ∉ SortedMap.keys m)) ∧
    fallback? m = findAny? m ["en-US", "en"] ∧
    (∀ lookup next, HandsOver m lookup next → run? m lookup = run? m next) ∧
    WellFounded fun next lookup => HandsOver m lookup next := by
  refine ⟨fun tag => ?_, fun tags => ?_, fallback?_eq m, ?_, wellFounded_handsOver m⟩
  · exact ⟨finds_find? m tag, (finds_find? m tag).eq_none_iff⟩
  · exact ⟨finds_findAny? m tags, (finds_findAny? m tags).eq_none_iff⟩
  · exact fun lookup next h => h.run?_eq

/-- A text in German only. -/
def germanOnly : Translated String := .ofList [("de", "Der Himmel")]

/-- A list in other languages goes on to the fallback and from there to the
English tags, where it ends in vain. -/
theorem lookup_order_germanOnly :
    HandsOver germanOnly (.any ["fr", "en"]) .fallback ∧
      HandsOver germanOnly .fallback (.any ["en-US", "en"]) ∧
      findAny? germanOnly ["fr", "en"] = findAny? germanOnly ["en-US", "en"] ∧
      findAny? germanOnly ["en-US", "en"] = none := by
  obtain ⟨_, hlist, _, hanswer, _⟩ := lookup_order germanOnly
  have hfirst : HandsOver germanOnly (.any ["fr", "en"]) .fallback :=
    .any (by decide +kernel) (by decide)
  have hsecond : HandsOver germanOnly .fallback (.any ["en-US", "en"]) := .fallback
  refine ⟨hfirst, hsecond, ?_, (hlist ["en-US", "en"]).2.2 (by decide +kernel)⟩
  exact (hanswer _ _ hfirst).trans (hanswer _ _ hsecond)

end FilmCatalog.Translated
