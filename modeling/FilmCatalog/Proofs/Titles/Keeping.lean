/-
  FilmCatalog.Proofs.Titles.Keeping
  ─────────────────────────────────
  **STORED TITLES STAY, WHERE THE STORED SIDE IS PREFERRED.**

  A step of the merge fills the gaps of a stored title, adds a title in a new
  language, or refuses it, since there is an original one already
  (`mergeTitle_mine_cases`).  So no step takes anything from a stored title
  (`exists_kept_merge`), and none makes a second title original
  (`originals_merge_le`).
-/
import FilmCatalog.Proofs.Titles.NormalForm

namespace FilmCatalog

/-! ## §1. One title. -/

namespace Title

/-- What the stored title says, the merged one says. -/
structure Kept (stored merged : Title) : Prop where
  text : stored.text ≠ "" → merged.text = stored.text
  sort : stored.sort ≠ none → merged.sort = stored.sort
  original : merged.original = stored.original

theorem Kept.refl (t : Title) : t.Kept t := ⟨fun _ => rfl, fun _ => rfl, rfl⟩

theorem Kept.trans {a b c : Title} (hab : a.Kept b) (hbc : b.Kept c) : a.Kept c where
  text := by
    intro htext
    have hsame := hab.text htext
    rw [hbc.text (hsame ▸ htext), hsame]
  sort := by
    intro hsort
    have hsame := hab.sort hsort
    rw [hbc.sort (hsame ▸ hsort), hsame]
  original := hbc.original.trans hab.original

theorem text_normalize {t : Title} (h : t.text ≠ "") : t.normalize.value.text = t.text := by
  unfold normalize
  simp only [if_neg h]
  split
  · rfl
  · split <;> rfl

theorem original_normalize (t : Title) : t.normalize.value.original = t.original := by
  unfold normalize
  generalize (if t.text = "" then t.sort.getD "" else t.text) = text
  simp only
  split
  · rfl
  · split <;> rfl

/-- **A merge fills the gaps of a stored title and changes nothing else.** -/
theorem kept_merge {stored : Title} (h : stored.Normal) (incoming : Title) :
    stored.Kept (stored.merge .mine incoming).value where
  text := by
    intro htext
    have hcombined : (stored.combine .mine incoming).text = stored.text := if_neg htext
    exact (text_normalize (hcombined ▸ htext)).trans hcombined
  sort := by
    intro hsort
    -- There is a text next to the sort text, so there is no gap at all.
    have htext : stored.text ≠ "" := fun hempty => hsort (h.2.2 hempty)
    have hcombined : stored.combine .mine incoming = stored := by
      obtain ⟨sort, hsome⟩ := Option.ne_none_iff_exists'.1 hsort
      simp only [combine, if_neg htext, hsome, Option.some_or]
      exact hsome ▸ rfl
    show (stored.combine .mine incoming).normalize.value.sort = stored.sort
    rw [hcombined, normalize_of_normal h]
    rfl
  original := original_normalize _

end Title

namespace Titles

/-! ## §2. One step. -/

/-- How many titles are original. -/
def originals (titles : Titles) : Nat := titles.entries.countP fun entry => entry.2.original

theorem originals_eq_zero {titles : Titles} (h : originalTag? titles = none) :
    originals titles = 0 := by
  have hfound := List.find?_eq_none.1 (Option.map_eq_none_iff.1 h)
  exact List.countP_eq_zero.2 hfound

/-- **What a step can do.** -/
theorem mergeTitle_mine_cases (titles : Titles) (tag : String) (title : Title) :
    (∃ current, SortedMap.get? titles tag = some current ∧
      (mergeTitle .mine titles tag title).value
        = SortedMap.insert titles tag (current.merge .mine title).value) ∨
    (SortedMap.get? titles tag = none ∧ (title.original = true → originals titles = 0) ∧
      (mergeTitle .mine titles tag title).value = SortedMap.insert titles tag title) ∨
    (mergeTitle .mine titles tag title).value = titles := by
  unfold mergeTitle
  cases htag : SortedMap.get? titles tag with
  | some current => exact .inl ⟨current, rfl, rfl⟩
  | none =>
    unfold mergeNew
    cases hgiven : if title.original then originalTag? titles else none with
    | some existing => exact .inr (.inr rfl)
    | none =>
      refine .inr (.inl ⟨rfl, fun horiginal => ?_, rfl⟩)
      rw [if_pos horiginal] at hgiven
      exact originals_eq_zero hgiven

/-- There is a title in the language that keeps the given one. -/
def Holds (tag : String) (stored : Title) (titles : Titles) : Prop :=
  ∃ title, SortedMap.get? titles tag = some title ∧ title.Normal ∧ stored.Kept title

theorem holds_mergeTitle {titles : Titles} {tag : String} {stored : Title}
    (h : Holds tag stored titles) (other : String) (title : Title) :
    Holds tag stored (mergeTitle .mine titles other title).value := by
  obtain ⟨current, hcurrent, hnormal, hkept⟩ := h
  obtain ⟨found, hfound, hvalue⟩ | ⟨hnew, _, hvalue⟩ | hvalue :=
    mergeTitle_mine_cases titles other title
  · -- In the language itself only gaps are filled; the others are out of its way.
    rw [hvalue]
    by_cases hsame : other = tag
    · subst hsame
      obtain rfl : current = found := Option.some.inj (hcurrent.symm.trans hfound)
      exact ⟨_, SortedMap.get?_insert_self _ _ _, Title.normal_merge .mine current title,
        hkept.trans (Title.kept_merge hnormal title)⟩
    · exact ⟨current, by rw [SortedMap.get?_insert_of_ne _ _ hsame, hcurrent], hnormal, hkept⟩
  · -- A new language is another one, since this one has its title.
    have hother : other ≠ tag := by
      rintro rfl
      rw [hnew] at hcurrent
      cases hcurrent
    rw [hvalue]
    exact ⟨current, by rw [SortedMap.get?_insert_of_ne _ _ hother, hcurrent], hnormal, hkept⟩
  · rw [hvalue]
    exact ⟨current, hcurrent, hnormal, hkept⟩

/-- A step makes a title original only if there is none. -/
theorem originals_mergeTitle_le (titles : Titles) (tag : String) (title : Title) :
    originals (mergeTitle .mine titles tag title).value ≤ max 1 (originals titles) := by
  have hinsert : ∀ value : Title, originals (SortedMap.insert titles tag value)
        + ((SortedMap.get? titles tag).elim 0 fun old => if old.original then 1 else 0)
      = originals titles + if value.original then 1 else 0 :=
    fun value => Entries.countP_insertEntry Title.original tag value titles.ascending
  obtain ⟨current, hcurrent, hvalue⟩ | ⟨hnew, hfirst, hvalue⟩ | hvalue :=
    mergeTitle_mine_cases titles tag title
  · -- A title that is there keeps its mark, so the number stays.
    have hsame : (current.merge .mine title).value.original = current.original :=
      Title.original_normalize _
    have hcount := hinsert (current.merge .mine title).value
    rw [hcurrent, hsame] at hcount
    simp only [Option.elim_some] at hcount
    rw [hvalue]
    omega
  · -- A new title counts only if it is original, and then it is the first.
    have hcount := hinsert title
    rw [hnew] at hcount
    simp only [Option.elim_none] at hcount
    rw [hvalue]
    by_cases horiginal : title.original = true
    · rw [if_pos horiginal, hfirst horiginal] at hcount
      omega
    · rw [if_neg horiginal] at hcount
      omega
  · rw [hvalue]
    omega

/-! ## §3. The merge. -/

/-- **Every stored title is kept.** -/
theorem exists_kept_merge {stored incoming : Titles} (h : Translated.Forall Title.Normal stored)
    {tag : String} {title : Title} (htitle : SortedMap.get? stored tag = some title) :
    ∃ kept, SortedMap.get? (merge .mine stored incoming).value tag = some kept ∧
      title.Kept kept := by
  have hholds : Holds tag title (merge .mine stored incoming).value := by
    rw [merge_eq_run]
    refine Merged.run_induction ⟨title, htitle, h tag title htitle, .refl title⟩ ?_
    intro entry _ titles htitles
    exact holds_mergeTitle htitles entry.1 entry.2
  obtain ⟨kept, hget, _, hkept⟩ := hholds
  exact ⟨kept, hget, hkept⟩

/-- **No second title becomes original.** -/
theorem originals_merge_le (stored incoming : Titles) :
    originals (merge .mine stored incoming).value ≤ max 1 (originals stored) := by
  rw [merge_eq_run]
  refine Merged.run_induction
    (P := fun titles => originals titles ≤ max 1 (originals stored)) (Nat.le_max_right _ _) ?_
  intro entry _ titles htitles
  have hstep := originals_mergeTitle_le titles entry.1 entry.2
  omega

end Titles

end FilmCatalog
