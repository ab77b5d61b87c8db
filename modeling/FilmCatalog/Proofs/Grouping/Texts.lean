/-
  FilmCatalog.Proofs.Grouping.Texts
  ─────────────────────────────────
  **MERGED LISTS OF TEXTS.**

  Equal texts are paired, and the stored one stays.  So nothing happens to the
  stored list but that texts are added to it:

      mergeLists stored incoming = stored ++ surplus stored incoming

    • `count_mergeLists_texts` — how often a text stands in the merged list,
    • `mergeLists_texts_eq` — what is added, as a difference of lists,
    • `merge_texts_surplus` — what is added, text by text, and when it is
      anything.
-/
import Mathlib.Data.List.Induction
import FilmCatalog.Proofs.Grouping.Lists
import FilmCatalog.Proofs.Merging

namespace FilmCatalog.WeaveRule

/-! ## §1. How texts are grouped. -/

/-- Equal texts belong together, and come in the order of their positions. -/
def textGrouping : Grouping texts String where
  key := id
  pairable := fun _ => true
  ahead := fun a b => a.2 < b.2
  le_trans := by
    intro a b c hab hbc
    exact decide_eq_true (String.le_trans (of_decide_eq_true hab) (of_decide_eq_true hbc))
  le_total := by
    intro a b
    show (decide (a ≤ b) || decide (b ≤ a)) = true
    simpa using String.le_total a b
  key_between := by
    intro a b c hab hbc hac
    have hle : b ≤ a := of_decide_eq_true (show decide (b ≤ a) = true from
      (show a = c from hac) ▸ hbc)
    exact String.le_antisymm hle (of_decide_eq_true hab)
  pairs_iff := by
    intro a b
    show decide (a = b) = true ↔ _
    simp
  ahead_irrefl := by
    intro entry
    simp
  ahead_of_le := by
    intro a b hkey hle hposition
    have hsame : a.1 = b.1 := hkey
    have hlt : a.2 < b.2 := hposition (decide_eq_true (hsame ▸ String.le_refl _))
    simp only [decide_eq_true_eq, decide_eq_false_iff_not]
    omega
  key_unite := fun _ _ => rfl
  position_unite := fun _ _ => rfl

/-- A merged list of texts starts with the stored one. -/
theorem mergeLists_texts_unpaired (stored incoming : List String) :
    texts.mergeLists stored incoming = stored ++ textGrouping.unpaired stored incoming := by
  have hself : ∀ entries fresh older, textGrouping.settled entries fresh older = older := by
    intro entries fresh older
    unfold Grouping.settled
    split
    · rfl
    · rfl
  rw [textGrouping.mergeLists_eq]
  congr 1
  unfold Grouping.united
  rw [List.map_congr_left fun older _ => hself _ _ older, List.map_id']
  exact List.zipIdx_map_fst 0 stored

/-- **A text stands in the merged list as often as on the side where it stands
more often.** -/
theorem count_mergeLists_texts (text : String) (stored incoming : List String) :
    (texts.mergeLists stored incoming).count text
      = max (stored.count text) (incoming.count text) := by
  have hcount := textGrouping.count_mergeLists stored incoming text
  have hkey : textGrouping.key = id := rfl
  have hpairable : textGrouping.pairable text = true := rfl
  rw [if_pos hpairable] at hcount
  simp only [hkey, List.map_id] at hcount
  omega

/-! ## §2. The merged list. -/

/-- Later texts do not change which of the earlier ones have a partner. -/
theorem isLeft_append {stored incoming : List String} (more : List String) {entry : String × Nat}
    (h : entry ∈ incoming.zipIdx stored.length) :
    textGrouping.isLeft stored.zipIdx ((incoming ++ more).zipIdx stored.length) entry
      = textGrouping.isLeft stored.zipIdx (incoming.zipIdx stored.length) entry := by
  have hlow : entry.2 < stored.length + incoming.length := List.snd_lt_add_of_mem_zipIdx h
  -- Nothing of `more` comes ahead of the entry.
  have hrank : textGrouping.rank ((incoming ++ more).zipIdx stored.length) entry
      = textGrouping.rank (incoming.zipIdx stored.length) entry := by
    have hnone : (more.zipIdx (stored.length + incoming.length)).countP (fun other =>
        textGrouping.key other.1 = textGrouping.key entry.1
          && textGrouping.ahead other entry) = 0 := by
      refine List.countP_eq_zero.2 fun other hother hahead => ?_
      have hhigh := List.le_snd_of_mem_zipIdx hother
      have hlt : other.2 < entry.2 := of_decide_eq_true (Bool.and_eq_true_iff.1 hahead).2
      omega
    unfold Grouping.rank
    rw [List.zipIdx_append, List.countP_append, hnone, Nat.add_zero]
  unfold Grouping.isLeft Grouping.paired
  rw [hrank]

/-- One more text finds no partner if as many came before it as are stored. -/
theorem unpaired_concat (stored incoming : List String) (text : String) :
    textGrouping.unpaired stored (incoming ++ [text])
      = textGrouping.unpaired stored incoming
          ++ if stored.count text ≤ incoming.count text then [text] else [] := by
  have hsplit : textGrouping.unpaired stored (incoming ++ [text])
      = textGrouping.unpaired stored incoming
          ++ if textGrouping.isLeft stored.zipIdx ((incoming ++ [text]).zipIdx stored.length)
              (text, stored.length + incoming.length) = true then [text] else [] := by
    unfold Grouping.unpaired
    rw [List.zipIdx_append, List.filter_append, List.map_append, ← List.zipIdx_append,
      List.filter_congr fun entry hentry => isLeft_append [text] hentry, List.zipIdx_singleton,
      List.filter_cons, List.filter_nil]
    congr 1
    split
    · rfl
    · rfl
  -- How often the text stands in both merged lists tells whether it was added.
  have hbefore := count_mergeLists_texts text stored incoming
  have hafter := count_mergeLists_texts text stored (incoming ++ [text])
  rw [mergeLists_texts_unpaired, List.count_append] at hbefore hafter
  rw [hsplit, List.count_append, List.count_append, List.count_singleton_self] at hafter
  rw [hsplit]
  congr 1
  split at hafter
  · rename_i hleft
    rw [List.count_singleton_self] at hafter
    rw [if_pos hleft, if_pos (by omega)]
  · rename_i hleft
    rw [List.count_nil] at hafter
    rw [if_neg hleft, if_neg (by omega)]

/-- An item at the end is taken away only if all equal ones before it are. -/
theorem diff_concat (items others : List String) (item : String) :
    (items ++ [item]).diff others
      = items.diff others ++ if others.count item ≤ items.count item then [item] else [] := by
  induction others generalizing items with
  | nil => simp
  | cons other rest ih =>
    rw [List.diff_cons, List.diff_cons, List.erase_append]
    by_cases hmem : other ∈ items
    · rw [if_pos hmem, ih]
      by_cases hsame : other = item
      · subst hsame
        have hpos := List.count_pos_iff.2 hmem
        rw [List.count_erase_self, List.count_cons_self]
        congr 2
        rw [eq_iff_iff]
        omega
      · rw [List.count_erase_of_ne (Ne.symm hsame), List.count_cons_of_ne hsame]
    · rw [if_neg hmem, List.erase_of_not_mem hmem]
      by_cases hsame : other = item
      · subst hsame
        rw [List.erase_cons_head, List.count_cons_self, List.count_eq_zero.2 hmem,
          if_neg (by omega)]
        simp
      · have hother : [item].erase other = [item] := by simp [Ne.symm hsame]
        rw [hother, ih, List.count_cons_of_ne hsame]

/-- **A merged list of texts is the stored one and what the incoming one has
more**: of equal texts, as many as are stored are left out, the first ones. -/
theorem mergeLists_texts_eq (stored incoming : List String) :
    texts.mergeLists stored incoming = stored ++ incoming.diff stored := by
  rw [mergeLists_texts_unpaired]
  congr 1
  -- Text by text: on both sides the next one is added or left out alike.
  induction incoming using List.reverseRecOn with
  | nil => simp [Grouping.unpaired]
  | append_singleton rest text ih => rw [unpaired_concat, diff_concat, ih]

/-- **A list that starts like the stored one takes its place.** -/
theorem mergeLists_texts_append (stored more : List String) :
    texts.mergeLists stored (stored ++ more) = stored ++ more := by
  have hdiff : ∀ stored : List String, (stored ++ more).diff stored = more := by
    intro stored
    induction stored with
    | nil => rfl
    | cons head rest ih => rw [List.diff_cons, List.cons_append, List.erase_cons_head, ih]
  rw [mergeLists_texts_eq, hdiff]

theorem nodup_mergeLists_texts {stored incoming : List String} (hstored : stored.Nodup)
    (hincoming : incoming.Nodup) : (texts.mergeLists stored incoming).Nodup := by
  refine List.nodup_iff_count.2 fun text => ?_
  rw [count_mergeLists_texts]
  exact Nat.max_le.2 ⟨List.nodup_iff_count.1 hstored text, List.nodup_iff_count.1 hincoming text⟩

/-! ## §3. What is added, text by text. -/

/-- What the incoming list has more: of equal texts the first ones are left out,
as many as both lists have. -/
def surplus (stored incoming : List String) : List String :=
  (incoming.zipIdx.filter fun entry =>
    min (stored.count entry.1) (incoming.count entry.1)
      ≤ (incoming.take entry.2).count entry.1).map (·.1)

/-- A text is left over if as many equal ones came before it as are stored. -/
theorem surplus_eq_filter (stored incoming : List String) :
    surplus stored incoming = (incoming.zipIdx.filter fun entry =>
      stored.count entry.1 ≤ (incoming.take entry.2).count entry.1).map (·.1) := by
  unfold surplus
  congr 1
  refine List.filter_congr fun entry hentry => ?_
  -- The text itself is not among those before it, so there are fewer of them than in all.
  have hnext : (incoming.take entry.2).count entry.1 < incoming.count entry.1 := by
    obtain ⟨hlt, hitem⟩ := List.getElem?_eq_some_iff.1 (List.mem_zipIdx_iff_getElem?.1 hentry)
    have hcount := (List.take_sublist (entry.2 + 1) incoming).count_le entry.1
    rw [List.take_succ_eq_append_getElem hlt, List.count_append, hitem,
      List.count_singleton_self] at hcount
    omega
  rw [decide_eq_decide]
  omega

theorem surplus_concat (stored incoming : List String) (text : String) :
    surplus stored (incoming ++ [text])
      = surplus stored incoming
          ++ if stored.count text ≤ incoming.count text then [text] else [] := by
  rw [surplus_eq_filter, surplus_eq_filter, List.zipIdx_append, List.filter_append, List.map_append]
  congr 1
  · congr 1
    refine List.filter_congr fun entry hentry => ?_
    have hlt : entry.2 < 0 + incoming.length := List.snd_lt_add_of_mem_zipIdx hentry
    rw [List.take_append_of_le_length (by omega)]
  · by_cases h : stored.count text ≤ incoming.count text
    · simp [h]
    · simp [h]

theorem surplus_eq_diff (stored incoming : List String) :
    surplus stored incoming = incoming.diff stored := by
  induction incoming using List.reverseRecOn with
  | nil => simp [surplus]
  | append_singleton rest text ih => rw [surplus_concat, diff_concat, ih]

/-- **A merge of two lists of texts.**  The stored list stays, and what the
incoming one has more follows in its order; the outcome tells whether that is
anything. -/
theorem merge_texts_surplus (stored incoming : List String) :
    (texts.merge stored incoming).value = stored ++ surplus stored incoming ∧
      ((texts.merge stored incoming).outcome = .updated ↔ surplus stored incoming ≠ []) ∧
      ((texts.merge stored incoming).outcome = .unchanged ↔ surplus stored incoming = []) := by
  have hvalue : (texts.merge stored incoming).value = stored ++ surplus stored incoming := by
    show texts.mergeLists stored incoming = _
    rw [mergeLists_texts_eq, surplus_eq_diff]
  have hexact := Merged.exact_replace stored (texts.mergeLists stored incoming)
  have hsame : (texts.merge stored incoming).value = stored ↔ surplus stored incoming = [] := by
    rw [hvalue, List.append_right_eq_self]
  exact ⟨hvalue, hexact.updated_iff.trans (not_congr hsame), hexact.unchanged_iff.trans hsame⟩

-- Of three equal texts the stored one answers for the first.
example : surplus ["Drama", "Horror"] ["Horror", "Western", "Horror", "Horror"]
    = ["Western", "Horror", "Horror"] := by decide

end FilmCatalog.WeaveRule
