/-
  FilmCatalog.Proofs.Weave
  ────────────────────────
  **LAWS OF THE MERGE OF LISTS.**

  A merge of lists ranks both sides, walks them side by side and goes back to
  the order of positions.  The laws here hold of every rule:

    • `mergeLists_self` — a list merged with itself is the list again, with
      all its repetitions, if every item pairs with itself and survives that,
    • `forall_mergeLists` — what holds of all items on both sides, and is
      kept by a union, holds of all merged items.

  Which items are paired depends on the rule; see `Grouping`.
-/
import Mathlib.Data.List.Nodup
import FilmCatalog.Merge.Weave

namespace FilmCatalog.WeaveRule

variable {α : Type} (rule : WeaveRule α)

/-! ## §1. Positions. -/

/-- The positions of a list increase. -/
theorem pairwise_zipIdx (items : List α) (offset : Nat) :
    (items.zipIdx offset).Pairwise fun a b => a.2 < b.2 := by
  induction items generalizing offset with
  | nil => exact .nil
  | cons item rest ih =>
    rw [List.zipIdx_cons]
    refine List.pairwise_cons.2 ⟨fun entry hentry => ?_, ih (offset + 1)⟩
    have hle : offset + 1 ≤ entry.2 := List.le_snd_of_mem_zipIdx hentry
    show offset < entry.2
    omega

/-- Filtering entries by their items is filtering the items. -/
theorem map_fst_filter_zipIdx (items : List α) (offset : Nat) (p : α → Bool) :
    ((items.zipIdx offset).filter fun entry => p entry.1).map (·.1) = items.filter p := by
  calc _ = ((items.zipIdx offset).map (·.1)).filter p := List.filter_map.symm
    _ = items.filter p := by rw [List.zipIdx_map_fst]

/-- Items go back to the order of their positions, whatever the walk did to it. -/
theorem restored_eq {walk order : List (α × Nat)} (h : walk.Perm order)
    (horder : order.Pairwise fun a b => a.2 < b.2) : restored walk = order.map (·.1) := by
  have hsorted : (walk.mergeSort fun a b => a.2 ≤ b.2).Pairwise
      fun a b => decide (a.2 ≤ b.2) = true := by
    refine List.pairwise_mergeSort ?_ ?_ walk
    · intro a b c hab hbc
      simp only [decide_eq_true_eq] at hab hbc ⊢
      omega
    · intro a b
      simp only [Bool.or_eq_true, decide_eq_true_eq]
      omega
  have hle : order.Pairwise fun a b => decide (a.2 ≤ b.2) = true :=
    horder.imp fun hab => decide_eq_true (Nat.le_of_lt hab)
  have hperm : (walk.mergeSort fun a b => a.2 ≤ b.2).Perm order :=
    (List.mergeSort_perm walk _).trans h
  -- Positions differ, so the two orders agree where they meet.
  have hnodup : (order.map (·.2)).Nodup :=
    List.pairwise_map.2 (horder.imp fun hab => Nat.ne_of_lt hab)
  have heq : (walk.mergeSort fun a b => a.2 ≤ b.2) = order := by
    refine List.Perm.eq_of_pairwise ?_ hsorted hle hperm
    intro a b ha hb hab hba
    have hpos : a.2 = b.2 := by
      simp only [decide_eq_true_eq] at hab hba
      omega
    exact List.inj_on_of_nodup_map hnodup (hperm.mem_iff.1 ha) hb hpos
  unfold restored
  rw [heq]

theorem restored_of_perm {items : List α} {walk : List (α × Nat)}
    (h : walk.Perm items.zipIdx) : restored walk = items := by
  rw [restored_eq h (pairwise_zipIdx items 0)]
  exact List.zipIdx_map_fst 0 items

theorem ranked_perm (items : List α) (offset : Nat) :
    (rule.ranked items offset).Perm (items.zipIdx offset) := List.mergeSort_perm _ _

/-- The ranking looks at the items only, so an offset moves all positions. -/
theorem ranked_offset (items : List α) (offset : Nat) :
    rule.ranked items offset
      = (rule.ranked items 0).map fun entry => (entry.1, offset + entry.2) := by
  unfold ranked
  have hmoved : items.zipIdx offset
      = items.zipIdx.map fun entry => (entry.1, offset + entry.2) := List.zipIdx_eq_map_add
  rw [hmoved, List.map_mergeSort]
  intro a _ b _
  rfl

theorem mem_of_mem_ranked {items : List α} {offset : Nat} {entry : α × Nat}
    (h : entry ∈ rule.ranked items offset) : entry.1 ∈ items :=
  List.fst_mem_of_mem_zipIdx ((rule.ranked_perm items offset).mem_iff.1 h)

/-! ## §2. A list merged with itself. -/

/-- An item that pairs with itself and comes out of that as it was, where it
was. -/
def KeepsItself (item : α) : Prop :=
  rule.pairs item item = true ∧ ∀ i j, rule.unite (item, i) (item, j) = (item, i)

theorem weave_self {walk : List (α × Nat)} (offset : Nat)
    (h : ∀ entry ∈ walk, rule.KeepsItself entry.1) :
    rule.weave walk (walk.map fun entry => (entry.1, offset + entry.2)) = walk := by
  induction walk with
  | nil => rw [List.map_nil, weave]
  | cons head rest ih =>
    obtain ⟨hpairs, hunite⟩ := h head List.mem_cons_self
    rw [List.map_cons, weave, if_pos hpairs, hunite, ih fun entry hentry =>
      h entry (List.mem_cons_of_mem _ hentry)]

/-- **A list merged with itself is the list again.** -/
theorem mergeLists_self {items : List α} (h : ∀ item ∈ items, rule.KeepsItself item) :
    rule.mergeLists items items = items := by
  unfold mergeLists
  -- The second ranking is the first one with other positions, so the walk meets equal items.
  rw [rule.ranked_offset items items.length, weave_self]
  · exact restored_of_perm (rule.ranked_perm items 0)
  · intro entry hentry
    exact h entry.1 (rule.mem_of_mem_ranked hentry)

theorem weave_nil (stored : List (α × Nat)) : rule.weave stored [] = stored := by
  cases stored with
  | nil => rw [weave]
  | cons older stored => rw [weave]

/-- **Merged into an empty list, a list stays what it is.** -/
theorem mergeLists_nil (items : List α) : rule.mergeLists [] items = items := by
  unfold mergeLists ranked
  rw [List.zipIdx_nil, List.mergeSort_nil, weave]
  exact restored_of_perm (rule.ranked_perm items 0)

/-- **Merged with an empty list, a list stays what it is.** -/
theorem mergeLists_nil_right (items : List α) : rule.mergeLists items [] = items := by
  have hnone : rule.ranked [] items.length = [] := by
    unfold ranked
    rw [List.zipIdx_nil, List.mergeSort_nil]
  unfold mergeLists
  rw [hnone, weave_nil]
  exact restored_of_perm (rule.ranked_perm items 0)

theorem texts_keepsItself (text : String) : texts.KeepsItself text :=
  ⟨decide_eq_true rfl, fun _ _ => rfl⟩

theorem markers_keepsItself (marker : Marker) : markers.KeepsItself marker := by
  refine ⟨?_, fun _ _ => if_pos rfl⟩
  show marker.equivalent marker = true
  simp [Marker.equivalent]

/-! ## §3. What both sides have in common. -/

/-- A walk has no items but those of both sides and unions of them. -/
theorem forall_weave {P : α → Prop}
    (hunite : ∀ a b i j, P a → P b → P (rule.unite (a, i) (b, j)).1)
    (stored incoming : List (α × Nat)) (hstored : ∀ entry ∈ stored, P entry.1)
    (hincoming : ∀ entry ∈ incoming, P entry.1) :
    ∀ entry ∈ rule.weave stored incoming, P entry.1 := by
  induction stored, incoming using weave.induct rule with
  | case1 incoming =>
    rw [weave]
    exact hincoming
  | case2 older stored =>
    rw [weave]
    exact hstored
  | case3 older stored newer incoming hpairs ih =>
    obtain ⟨holder, hrest⟩ := List.forall_mem_cons.1 hstored
    obtain ⟨hnewer, hnext⟩ := List.forall_mem_cons.1 hincoming
    rw [weave, if_pos hpairs]
    exact List.forall_mem_cons.2 ⟨hunite _ _ _ _ holder hnewer, ih hrest hnext⟩
  | case4 older stored newer incoming hpairs hle ih =>
    obtain ⟨holder, hrest⟩ := List.forall_mem_cons.1 hstored
    rw [weave, if_neg hpairs, if_pos hle]
    exact List.forall_mem_cons.2 ⟨holder, ih hrest hincoming⟩
  | case5 older stored newer incoming hpairs hle ih =>
    obtain ⟨hnewer, hnext⟩ := List.forall_mem_cons.1 hincoming
    rw [weave, if_neg hpairs, if_neg hle]
    exact List.forall_mem_cons.2 ⟨hnewer, ih hstored hnext⟩

theorem restored_perm (walk : List (α × Nat)) : (restored walk).Perm (walk.map (·.1)) :=
  (List.mergeSort_perm walk _).map _

theorem forall_mergeLists {P : α → Prop}
    (hunite : ∀ a b i j, P a → P b → P (rule.unite (a, i) (b, j)).1)
    {stored incoming : List α} (hstored : ∀ item ∈ stored, P item)
    (hincoming : ∀ item ∈ incoming, P item) :
    ∀ item ∈ rule.mergeLists stored incoming, P item := by
  intro item hitem
  obtain ⟨entry, hentry, rfl⟩ := List.mem_map.1 ((restored_perm _).mem_iff.1 hitem)
  refine rule.forall_weave hunite _ _ ?_ ?_ entry hentry
  · intro entry hentry
    exact hstored _ (rule.mem_of_mem_ranked hentry)
  · intro entry hentry
    exact hincoming _ (rule.mem_of_mem_ranked hentry)

end FilmCatalog.WeaveRule
