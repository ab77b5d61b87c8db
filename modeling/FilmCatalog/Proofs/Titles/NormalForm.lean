/-
  FilmCatalog.Proofs.Titles.NormalForm
  ────────────────────────────────────
  **TITLES ARE IN NORMAL FORM.**

  `Title.normalize` gives the normal form and leaves a title that has it.
  Loading and merging end with it wherever they make a title, and otherwise
  only insert and drop titles; so all titles of a film are in normal form
  after a load (`ensures_load`, `ensures_loadLegacy`) and after a merge
  (`forall_normal_merge`), and a merge with themselves leaves them
  (`merge_self`).
-/
import FilmCatalog.Merge.Titles
import FilmCatalog.Proofs.Loading
import FilmCatalog.Proofs.Merging

namespace FilmCatalog

open Loaded

/-! ## §1. One title. -/

namespace Title

theorem normal_of_sort_none {t : Title} (h : t.sort = none) : t.Normal := by
  unfold Normal
  simp [h]

/-- A title is in normal form after it was tidied. -/
theorem normal_normalize (t : Title) : t.normalize.value.Normal := by
  -- The text stays empty only if there is no sort text to fill it from.
  have hfilled : ∀ text, (if t.text = "" then t.sort.getD "" else t.text) = text →
      t.sort ≠ some "" → text = "" → t.sort = none := by
    intro text htext hempty hblank
    cases hsort : t.sort with
    | none => rfl
    | some sort =>
      rw [hsort] at htext hempty
      by_cases h : t.text = ""
      · rw [if_pos h] at htext
        exact absurd (congrArg some (htext.trans hblank)) hempty
      · rw [if_neg h] at htext
        exact absurd (htext.trans hblank) h
  unfold normalize
  generalize htext : (if t.text = "" then t.sort.getD "" else t.text) = text
  simp only
  by_cases hsame : t.sort = some text
  · rw [if_pos hsame]
    exact normal_of_sort_none rfl
  · rw [if_neg hsame]
    by_cases hempty : t.sort = some ""
    · rw [if_pos hempty]
      exact normal_of_sort_none rfl
    · rw [if_neg hempty]
      exact ⟨hempty, hsame, hfilled text htext hempty⟩

/-- A title in normal form is tidy. -/
theorem normalize_of_normal {t : Title} (h : t.Normal) : t.normalize = done t .unchanged := by
  obtain ⟨hempty, hsame, hblank⟩ := h
  have htext : (if t.text = "" then t.sort.getD "" else t.text) = t.text := by
    by_cases htext : t.text = ""
    · rw [if_pos htext, hblank htext, htext]
      rfl
    · rw [if_neg htext]
  unfold normalize
  simp only [htext]
  rw [if_neg hsame, if_neg hempty]

theorem combine_self (prefer : Preference) (t : Title) : t.combine prefer t = t := by
  cases prefer with
  | theirs => simp only [combine, Option.or_self]
  | mine => simp only [combine, Option.or_self, ite_self]

/-- A title in normal form stays as it is when it is merged with itself. -/
theorem merge_self {t : Title} (h : t.Normal) (prefer : Preference) :
    t.merge prefer t = .keep t := by
  unfold merge
  rw [combine_self, normalize_of_normal h]
  exact Merged.replace_self t

/-- Every merged title is in normal form. -/
theorem normal_merge (prefer : Preference) (stored incoming : Title) :
    (stored.merge prefer incoming).value.Normal := normal_normalize _

theorem ensures_loadFields (fields : Json.Fields) (old : Title) (text : String) :
    (loadFields fields old text).Ensures Normal :=
  ensures_andThen (fun _ _ => trivial) fun t (_ : True) _ _ => normal_normalize t

theorem yields_load (old : Title) (node : Json) : (load old node).Yields Normal := by
  unfold load
  split
  · exact Ensures.yields fun _ _ => normal_normalize _
  · split
    · intro outcome hresult hpresent
      cases hresult
      exact absurd rfl hpresent
    · simp only
      split
      · rename_i herror
        intro outcome hresult
        rw [into, herror] at hresult
        cases hresult
      · intro outcome hresult hpresent
        cases hresult
        exact absurd rfl hpresent
      · exact (ensures_loadFields _ old _).yields
  · exact ensures_failed.yields

end Title

/-! ## §2. Titles by language. -/

namespace Titles

open Translated

/-- Loaded titles are in normal form. -/
theorem ensures_load (fields : Json.Fields) {titles : Titles} (h : Forall Title.Normal titles) :
    (Translated.load Title.load default fields "title" titles).Ensures (Forall Title.Normal) :=
  Translated.ensures_load (Title.yields_load default) fields "title" h

/-- A title that fills a gap keeps the others in normal form. -/
theorem forall_fill {titles : Titles} (h : Forall Title.Normal titles) (tag : String)
    {title : Title} (htitle : title.Normal) : Forall Title.Normal (fill titles tag title) := by
  unfold fill
  split
  · exact h
  · exact forall_insert h htitle

/-- Titles of the old layout are brought into normal form. -/
theorem ensures_loadLegacyFields (fields : Json.Fields) {titles : Titles}
    (h : Forall Title.Normal titles) :
    (loadLegacyFields fields titles).Ensures (Forall Title.Normal) := by
  -- A title of the old layout has no sort text.
  have hfill : ∀ {before : Titles} (tag text : String) (original : Bool),
      Forall Title.Normal before → Forall Title.Normal
        (if text = "" then before else fill before tag ⟨text, none, original⟩) := by
    intro before tag text original hbefore
    split
    · exact hbefore
    · exact forall_fill hbefore tag (Title.normal_of_sort_none rfl)
  unfold loadLegacyFields
  simp only
  split
  · exact ensures_failed
  · exact ensures_failed
  · refine ensures_repaired ?_
    cases ((loadOptional loadText "" fields "orig" none).under "title").value with
    | none =>
      cases ((loadOptional loadText "" fields "local" none).under "title").value with
      | none => exact h
      | some text => exact hfill defaultTag text false h
    | some original =>
      cases ((loadOptional loadText "" fields "local" none).under "title").value with
      | none => exact hfill unknownOriginal original true h
      | some text =>
        exact hfill unknownOriginal original true (hfill defaultTag text false h)

theorem ensures_loadLegacy (fields : Json.Fields) {titles : Titles}
    (h : Forall Title.Normal titles) :
    (loadLegacy fields titles).Ensures (Forall Title.Normal) := by
  unfold loadLegacy
  split
  · split
    · exact ensures_loadLegacyFields _ h
    · exact ensures_done h
  · exact ensures_done h

/-- The original title in an unknown language is the only original one. -/
def Pruned (titles : Titles) : Prop :=
  (hasUnknownOriginal titles && hasKnownOriginal titles) = false

/-- At most one kind of original title is left, in normal form as before. -/
theorem ensures_dropUnneededOriginal {titles : Titles} (h : Forall Title.Normal titles) :
    (dropUnneededOriginal titles).Ensures fun titles =>
      Forall Title.Normal titles ∧ Pruned titles := by
  unfold dropUnneededOriginal
  split
  · refine ensures_repaired ⟨forall_erase h, ?_⟩
    unfold Pruned hasUnknownOriginal
    rw [SortedMap.get?_erase, if_pos rfl]
    rfl
  · rename_i hboth
    exact ensures_done ⟨h, Bool.eq_false_iff.2 hboth⟩

/-! ## §3. Merged titles. -/

theorem merge_eq_run (prefer : Preference) (stored incoming : Titles) :
    merge prefer stored incoming
      = Merged.run (mergeTitle prefer) incoming.entries (.keep stored) := rfl

/-- One step: whatever becomes of the titles, they are in normal form. -/
theorem forall_normal_mergeTitle (prefer : Preference) {titles : Titles} (tag : String)
    {title : Title} (h : Forall Title.Normal titles) (htitle : title.Normal) :
    Forall Title.Normal (mergeTitle prefer titles tag title).value := by
  unfold mergeTitle
  split
  · exact forall_insert h (Title.normal_merge prefer _ title)
  · unfold mergeNew
    split
    · exact forall_insert h htitle
    · split
      · exact h
      · exact forall_insert (forall_erase h) htitle

/-- **Merged titles are in normal form.** -/
theorem forall_normal_merge (prefer : Preference) {stored incoming : Titles}
    (hstored : Forall Title.Normal stored) (hincoming : Forall Title.Normal incoming) :
    Forall Title.Normal (merge prefer stored incoming).value := by
  refine Merged.run_induction hstored fun entry hentry titles htitles => ?_
  exact forall_normal_mergeTitle prefer entry.1 htitles
    (hincoming entry.1 entry.2 (SortedMap.get?_of_mem_entries hentry))

/-- **Titles in normal form merged with themselves stay what they are.** -/
theorem merge_self {titles : Titles} (h : Forall Title.Normal titles) (prefer : Preference) :
    merge prefer titles titles = .keep titles := by
  refine Merged.run_keep fun entry hentry => ?_
  have hget := SortedMap.get?_of_mem_entries hentry
  unfold mergeTitle
  rw [hget]
  simp only [Title.merge_self (h entry.1 entry.2 hget)]
  show Merged.mk (SortedMap.insert titles entry.1 entry.2) .unchanged = .keep titles
  rw [SortedMap.insert_of_get? hget]
  rfl

end Titles

end FilmCatalog
