/-
  FilmCatalog.Proofs.Grouping.Lists
  ─────────────────────────────────
  **WHAT A MERGE OF LISTS GIVES, IF ITS RULE GROUPS ITEMS.**

      mergeLists stored incoming = united stored incoming ++ unpaired stored incoming

  Stored items come first and in their order, those with a partner united with
  it; incoming items without a partner follow in theirs.

    • `mergeLists_eq` — the merged list,
    • `united_eq_self_iff` — when the stored items stay as they are,
    • `count_mergeLists` — how often a key stands in the merged list,
    • `unpaired_mergeLists` — merged once more, nothing is added.

  Lists of texts are in `Grouping.Texts`.
-/
import FilmCatalog.Proofs.Grouping.Walks

namespace FilmCatalog

open WeaveRule

namespace Grouping

variable {α κ : Type} {rule : WeaveRule α} (g : Grouping rule κ) [DecidableEq κ]

/-! ## §1. The merged list. -/

/-- The stored items, each united with its partner. -/
def united (stored incoming : List α) : List α :=
  (stored.zipIdx.map (g.settled stored.zipIdx (incoming.zipIdx stored.length))).map (·.1)

/-- The incoming items without a partner. -/
def unpaired (stored incoming : List α) : List α :=
  ((incoming.zipIdx stored.length).filter
    (g.isLeft stored.zipIdx (incoming.zipIdx stored.length))).map (·.1)

/-- Pairs do not depend on the order in which entries are listed. -/
theorem paired_perm {stored incoming others fresh : List (α × Nat)} (hstored : stored.Perm others)
    (hincoming : incoming.Perm fresh) (older newer : α × Nat) :
    g.paired stored incoming older newer = g.paired others fresh older newer := by
  unfold paired rank
  rw [hstored.countP_eq, hincoming.countP_eq]

/-- A stored entry has one partner at most: a second one would have the key and
the rank of the first. -/
theorem paired_unique {stored incoming : List (α × Nat)} (hwalk : rule.Walk incoming)
    {older a b : α × Nat} (ha : a ∈ incoming) (hb : b ∈ incoming)
    (hpaired : g.paired stored incoming older a = true)
    (hother : g.paired stored incoming older b = true) : a = b := by
  refine g.rank_inj hwalk ha hb ((g.key_of_paired hpaired).symm.trans (g.key_of_paired hother)) ?_
  have hrank := beq_iff_eq.1 (Bool.and_eq_true_iff.1 hpaired).2
  have hsame := beq_iff_eq.1 (Bool.and_eq_true_iff.1 hother).2
  omega

theorem settled_perm {stored incoming others fresh : List (α × Nat)} (hstored : stored.Perm others)
    (hincoming : incoming.Perm fresh) (hwalk : rule.Walk incoming) (older : α × Nat) :
    g.settled stored incoming older = g.settled others fresh older := by
  refine g.settled_congr ?_
  simp only [← g.paired_perm hstored hincoming]
  refine List.find?_eq_find?_of_perm hincoming ?_
  rintro a ⟨ha, hpaired⟩ b ⟨hb, hother⟩
  exact g.paired_unique hwalk ha hb hpaired hother

theorem isLeft_perm {stored incoming others fresh : List (α × Nat)} (hstored : stored.Perm others)
    (hincoming : incoming.Perm fresh) (newer : α × Nat) :
    g.isLeft stored incoming newer = g.isLeft others fresh newer := by
  unfold isLeft
  rw [Bool.eq_iff_iff, Option.isNone_iff_eq_none, Option.isNone_iff_eq_none, List.find?_eq_none,
    List.find?_eq_none]
  simp only [← g.paired_perm hstored hincoming, hstored.mem_iff]

theorem told_perm {stored incoming others fresh : List (α × Nat)} (hstored : stored.Perm others)
    (hincoming : incoming.Perm fresh) (hwalk : rule.Walk incoming) :
    (g.told stored incoming).Perm (g.told others fresh) := by
  refine List.Perm.append ?_ ?_
  · rw [List.map_congr_left fun older _ => g.settled_perm hstored hincoming hwalk older]
    exact hstored.map _
  · rw [List.filter_congr fun newer _ => g.isLeft_perm hstored hincoming newer]
    exact hincoming.filter _

theorem snd_settled (stored incoming : List (α × Nat)) (older : α × Nat) :
    (g.settled stored incoming older).2 = older.2 := by
  unfold settled
  split
  · exact g.position_unite _ _
  · rfl

/-- **The merged list**: stored items in their order, united with their
partners, and then the incoming items without a partner, in theirs. -/
theorem mergeLists_eq (stored incoming : List α) :
    rule.mergeLists stored incoming = g.united stored incoming ++ g.unpaired stored incoming := by
  -- The walk gives the same entries as the lists in the order of their positions.
  have hperm : (rule.weave (rule.ranked stored 0) (rule.ranked incoming stored.length)).Perm
      (g.told stored.zipIdx (incoming.zipIdx stored.length)) :=
    (g.weave_perm (g.walk_ranked stored 0) (g.walk_ranked incoming stored.length)).trans
      (g.told_perm (rule.ranked_perm stored 0) (rule.ranked_perm incoming stored.length)
        (g.walk_ranked incoming stored.length))
  unfold mergeLists united unpaired
  rw [restored_eq hperm, told, List.map_append]
  refine List.pairwise_append.2 ⟨?_, ?_, ?_⟩
  · refine List.pairwise_map.2 ((pairwise_zipIdx stored 0).imp fun hab => ?_)
    rwa [g.snd_settled, g.snd_settled]
  · exact (pairwise_zipIdx incoming stored.length).filter _
  · intro a ha b hb
    obtain ⟨older, holder, rfl⟩ := List.mem_map.1 ha
    have hlow : older.2 < stored.length := by
      simpa using List.snd_lt_of_mem_zipIdx holder
    have hhigh : stored.length ≤ b.2 := List.le_snd_of_mem_zipIdx (List.mem_filter.1 hb).1
    rw [g.snd_settled]
    omega

theorem length_united (stored incoming : List α) :
    (g.united stored incoming).length = stored.length := by
  simp [united]

/-- Where a stored item stands, there stands what became of it. -/
theorem getElem?_united (stored incoming : List α) (i : Nat) :
    (g.united stored incoming)[i]? = stored[i]?.map fun item =>
      (g.settled stored.zipIdx (incoming.zipIdx stored.length) (item, i)).1 := by
  simp [united, Function.comp_def]

/-- The stored items keep their keys. -/
theorem map_key_united (stored incoming : List α) :
    (g.united stored incoming).map g.key = stored.map g.key := by
  have hsettled : ∀ older, g.key
      (g.settled stored.zipIdx (incoming.zipIdx stored.length) older).1 = g.key older.1 := by
    intro older
    unfold settled
    split
    · exact g.key_unite _ _
    · rfl
  calc (g.united stored incoming).map g.key
      = stored.zipIdx.map fun older => g.key older.1 := by
        unfold united
        rw [List.map_map, List.map_map]
        exact List.map_congr_left fun older _ => hsettled older
    _ = (stored.zipIdx.map (·.1)).map g.key := by rw [List.map_map]; rfl
    _ = stored.map g.key := by rw [List.zipIdx_map_fst]

/-- Whoever is paired with a stored entry is the one that it is united with. -/
theorem settled_of_paired {stored : List (α × Nat)} {incoming : List α} {offset : Nat}
    {older newer : α × Nat} (hnewer : newer ∈ incoming.zipIdx offset)
    (h : g.paired stored (incoming.zipIdx offset) older newer = true) :
    g.settled stored (incoming.zipIdx offset) older = rule.unite older newer := by
  have hperm := rule.ranked_perm incoming offset
  unfold settled
  split
  · rename_i found hfound
    have hmem := List.mem_of_find?_eq_some hfound
    have hpaired := List.find?_some hfound
    rw [g.paired_perm (List.Perm.refl stored) hperm.symm] at h hpaired
    rw [g.paired_unique (g.walk_ranked incoming offset) (hperm.mem_iff.2 hmem)
      (hperm.mem_iff.2 hnewer) hpaired h]
  · rename_i hnone
    exact absurd h (List.find?_eq_none.1 hnone newer hnewer)

/-- **The stored items stay as they are** if no partner adds anything. -/
theorem united_eq_self_iff (stored incoming : List α) :
    g.united stored incoming = stored ↔
      ∀ older ∈ stored.zipIdx, ∀ newer ∈ incoming.zipIdx stored.length,
        g.paired stored.zipIdx (incoming.zipIdx stored.length) older newer = true →
          (rule.unite older newer).1 = older.1 := by
  have hstored : stored.zipIdx.map (·.1) = stored := List.zipIdx_map_fst 0 stored
  have hsame : g.united stored incoming = stored ↔ ∀ older ∈ stored.zipIdx,
      (g.settled stored.zipIdx (incoming.zipIdx stored.length) older).1 = older.1 := by
    unfold united
    rw [List.map_map, ← List.map_inj_left]
    exact ⟨fun h => h.trans hstored.symm, fun h => h.trans hstored⟩
  rw [hsame]
  refine forall₂_congr fun older holder => ?_
  constructor
  · intro h newer hnewer hpaired
    rwa [g.settled_of_paired hnewer hpaired] at h
  · intro h
    unfold settled
    split
    · rename_i newer hfound
      exact h newer (List.mem_of_find?_eq_some hfound) (List.find?_some hfound)
    · rfl

/-- **No incoming item is lost**: it is united with its partner, or it has none
and is added. -/
theorem paired_or_unpaired {stored incoming : List α} {newer : α × Nat}
    (hnewer : newer ∈ incoming.zipIdx stored.length) :
    (∃ older ∈ stored.zipIdx,
      g.paired stored.zipIdx (incoming.zipIdx stored.length) older newer = true ∧
        (rule.unite older newer).1 ∈ g.united stored incoming) ∨
      newer.1 ∈ g.unpaired stored incoming := by
  cases hfound : stored.zipIdx.find? fun older =>
      g.paired stored.zipIdx (incoming.zipIdx stored.length) older newer with
  | none =>
    refine .inr (List.mem_map_of_mem (List.mem_filter.2 ⟨hnewer, ?_⟩))
    unfold isLeft
    rw [hfound]
    rfl
  | some older =>
    have hmem := List.mem_of_find?_eq_some hfound
    have hpaired := List.find?_some hfound
    refine .inl ⟨older, hmem, hpaired, ?_⟩
    rw [← g.settled_of_paired hnewer hpaired]
    exact List.mem_map_of_mem (List.mem_map_of_mem hmem)

/-- **Of a key that is new, all incoming items are added.** -/
theorem filter_mergeLists {stored incoming : List α} {k : κ} (hnew : k ∉ stored.map g.key) :
    (rule.mergeLists stored incoming).filter (fun item => g.key item = k)
      = incoming.filter fun item => g.key item = k := by
  have hunited : (g.united stored incoming).filter (fun item => g.key item = k) = [] := by
    refine List.filter_eq_nil_iff.2 fun item hitem hk => hnew ?_
    rw [← of_decide_eq_true hk, ← g.map_key_united stored incoming]
    exact List.mem_map_of_mem hitem
  -- A partner would have the key on the stored side.
  have hleft : ∀ newer ∈ incoming.zipIdx stored.length,
      (decide (g.key newer.1 = k) && g.isLeft stored.zipIdx (incoming.zipIdx stored.length) newer)
        = decide (g.key newer.1 = k) := by
    intro newer _
    by_cases hk : g.key newer.1 = k
    · have hnone : stored.zipIdx.find? (fun older =>
          g.paired stored.zipIdx (incoming.zipIdx stored.length) older newer) = none := by
        refine List.find?_eq_none.2 fun older holder hpaired => hnew ?_
        rw [← hk, ← g.key_of_paired hpaired]
        exact List.mem_map_of_mem (List.fst_mem_of_mem_zipIdx holder)
      simp [isLeft, hnone]
    · simp [hk]
  rw [g.mergeLists_eq, List.filter_append, hunited, List.nil_append]
  unfold unpaired
  rw [List.filter_map, List.filter_filter]
  calc _ = ((incoming.zipIdx stored.length).filter fun newer => g.key newer.1 = k).map (·.1) :=
        congrArg _ (List.filter_congr hleft)
    _ = incoming.filter fun item => g.key item = k :=
        map_fst_filter_zipIdx incoming stored.length fun item => g.key item = k

/-- The items of a key, in the order of a walk. -/
theorem perm_filter_ranked (items : List α) (offset : Nat) (k : κ) :
    (((rule.ranked items offset).filter fun entry => g.key entry.1 = k).map (·.1)).Perm
      (items.filter fun item => g.key item = k) := by
  refine (((rule.ranked_perm items offset).filter _).map _).trans (List.Perm.of_eq ?_)
  exact map_fst_filter_zipIdx items offset fun item => g.key item = k

/-- **Equal items are paired** where a key has the same items on both sides. -/
theorem eq_of_paired (hantisymm : ∀ a b, rule.le a b = true → rule.le b a = true → a = b)
    {stored incoming : List α} {offset : Nat} {older newer : α × Nat}
    (holder : older ∈ stored.zipIdx) (hnewer : newer ∈ incoming.zipIdx offset)
    (hpaired : g.paired stored.zipIdx (incoming.zipIdx offset) older newer = true)
    (hsame : (stored.filter fun item => g.key item = g.key newer.1).Perm
      (incoming.filter fun item => g.key item = g.key newer.1)) : older.1 = newer.1 := by
  have hkey := g.key_of_paired hpaired
  rw [← g.paired_perm (rule.ranked_perm stored 0) (rule.ranked_perm incoming offset)] at hpaired
  have hrank := beq_iff_eq.1 (Bool.and_eq_true_iff.1 hpaired).2
  -- Without ties, there is one way to rank the items of a key.
  have hranked : ((rule.ranked stored 0).filter fun entry => g.key entry.1 = g.key newer.1).map (·.1)
      = ((rule.ranked incoming offset).filter fun entry => g.key entry.1 = g.key newer.1).map
          (·.1) := by
    refine List.Perm.eq_of_pairwise (fun a b _ _ => hantisymm a b) ?_ ?_
      (((g.perm_filter_ranked stored 0 _).trans hsame).trans
        (g.perm_filter_ranked incoming offset _).symm)
    · exact List.pairwise_map.2 (((g.walk_ranked stored 0).imp fun h => h.1).filter _)
    · exact List.pairwise_map.2 (((g.walk_ranked incoming offset).imp fun h => h.1).filter _)
  have hplace := g.getElem?_rank (g.walk_ranked stored 0)
    ((rule.ranked_perm stored 0).mem_iff.2 holder)
  have hother := g.getElem?_rank (g.walk_ranked incoming offset)
    ((rule.ranked_perm incoming offset).mem_iff.2 hnewer)
  rw [hkey, hrank] at hplace
  have hfirst := congrArg (Option.map Prod.fst) hplace
  have hsecond := congrArg (Option.map Prod.fst) hother
  rw [← List.getElem?_map] at hfirst hsecond
  rw [hranked, hsecond] at hfirst
  exact (Option.some.inj hfirst).symm

/-! ## §2. How often a key stands in a merged list. -/

/-- The keys of some entries. -/
def keys (entries : List (α × Nat)) : List κ := entries.map fun entry => g.key entry.1

theorem count_keys_cons (k : κ) (head : α × Nat) (rest : List (α × Nat)) :
    (g.keys (head :: rest)).count k
      = (g.keys rest).count k + if g.key head.1 = k then 1 else 0 := by
  unfold keys
  rw [List.map_cons, List.count_cons]
  simp only [beq_iff_eq]

/-- An entry that nobody pairs with adds nothing to the number of pairs. -/
theorem pairs_alone {entry : α × Nat} {others : List (α × Nat)}
    (h : g.pairable (g.key entry.1) = true → ∀ other ∈ others, g.key other.1 ≠ g.key entry.1)
    (k : κ) (n : Nat) :
    (if g.pairable k = true then
        min (n + if g.key entry.1 = k then 1 else 0) ((g.keys others).count k) else 0)
      = if g.pairable k = true then min n ((g.keys others).count k) else 0 := by
  by_cases hpairable : g.pairable k = true
  · rw [if_pos hpairable, if_pos hpairable]
    by_cases hkey : g.key entry.1 = k
    · have hzero : (g.keys others).count k = 0 := by
        refine List.count_eq_zero.2 fun hmem => ?_
        obtain ⟨other, hother, hsame⟩ := List.mem_map.1 hmem
        exact h (by rwa [hkey]) other hother (hsame.trans hkey.symm)
      rw [hzero, Nat.min_zero, Nat.min_zero]
    · rw [if_neg hkey, Nat.add_zero]
  · rw [if_neg hpairable, if_neg hpairable]

/-- A walk counts the entries of both sides, and every pair once. -/
theorem count_keys_weave (k : κ) {stored incoming : List (α × Nat)} (hstored : rule.Walk stored)
    (hincoming : rule.Walk incoming) :
    (g.keys (rule.weave stored incoming)).count k
        + (if g.pairable k = true then min ((g.keys stored).count k) ((g.keys incoming).count k)
            else 0)
      = (g.keys stored).count k + (g.keys incoming).count k := by
  induction stored, incoming using weave.induct rule with
  | case1 incoming =>
    rw [weave]
    simp [keys]
  | case2 older stored =>
    rw [weave]
    simp [keys]
  | case3 older stored newer incoming hpairs ih =>
    have hrest := ih (List.pairwise_cons.1 hstored).2 (List.pairwise_cons.1 hincoming).2
    obtain ⟨hpairable, hheads⟩ := (g.pairs_iff _ _).1 hpairs
    rw [weave, if_pos hpairs]
    simp only [count_keys_cons, g.key_unite, ← hheads]
    -- Two heads of the key leave one entry and make one pair.
    by_cases h : g.key older.1 = k
    · rw [h] at hpairable
      simp only [h, hpairable, if_true] at hrest ⊢
      omega
    · simp only [h, if_false, Nat.add_zero]
      exact hrest
  | case4 older stored newer incoming hpairs hle ih =>
    have hrest := ih (List.pairwise_cons.1 hstored).2 hincoming
    have halone := g.alone_of_le hincoming hpairs hle
    have hnobody : g.pairable (g.key older.1) = true →
        ∀ b ∈ newer :: incoming, g.key b.1 ≠ g.key older.1 := by
      intro hpairable b hb hkey
      have hboth := (g.pairs_iff older.1 b.1).2 ⟨hpairable, hkey.symm⟩
      rw [halone b hb] at hboth
      cases hboth
    rw [weave, if_neg hpairs, if_pos hle, g.count_keys_cons k older, g.count_keys_cons k older,
      g.pairs_alone hnobody]
    omega
  | case5 older stored newer incoming hpairs hle ih =>
    have hrest := ih hstored (List.pairwise_cons.1 hincoming).2
    have halone := g.alone_of_not_le hstored hpairs hle
    have hnobody : g.pairable (g.key newer.1) = true →
        ∀ a ∈ older :: stored, g.key a.1 ≠ g.key newer.1 := by
      intro hpairable a ha hkey
      have hboth := (g.pairs_iff a.1 newer.1).2 ⟨hkey ▸ hpairable, hkey⟩
      rw [halone a ha] at hboth
      cases hboth
    rw [weave, if_neg hpairs, if_neg hle, g.count_keys_cons k newer, g.count_keys_cons k newer,
      Nat.min_comm, g.pairs_alone hnobody, Nat.min_comm]
    omega

theorem count_keys_ranked (k : κ) (items : List α) (offset : Nat) :
    (g.keys (rule.ranked items offset)).count k = (items.map g.key).count k := by
  unfold keys
  rw [((rule.ranked_perm items offset).map _).count_eq]
  show ((items.zipIdx offset).map (g.key ∘ Prod.fst)).count k = _
  rw [← List.map_map, List.zipIdx_map_fst]

/-- **How often a key stands in a merged list**: as often as on both sides
together, with every pair counted once. -/
theorem count_mergeLists (stored incoming : List α) (k : κ) :
    ((rule.mergeLists stored incoming).map g.key).count k
        + (if g.pairable k = true then min ((stored.map g.key).count k) ((incoming.map g.key).count k)
            else 0)
      = (stored.map g.key).count k + (incoming.map g.key).count k := by
  have hwalk := g.count_keys_weave k (g.walk_ranked stored 0)
    (g.walk_ranked incoming stored.length)
  rw [g.count_keys_ranked, g.count_keys_ranked] at hwalk
  unfold mergeLists
  rw [((restored_perm _).map g.key).count_eq, List.map_map]
  exact hwalk

/-- **Merged once more, every incoming item finds a partner.** -/
theorem unpaired_mergeLists (stored : List α) {incoming : List α}
    (hincoming : ∀ item ∈ incoming, g.pairable (g.key item) = true) :
    g.unpaired (rule.mergeLists stored incoming) incoming = [] := by
  have hfirst := g.count_mergeLists stored incoming
  generalize rule.mergeLists stored incoming = merged at hfirst ⊢
  -- No key is left over, since the merged list has each at least as often as the incoming one.
  have hcount : ∀ k, ((rule.mergeLists merged incoming).map g.key).count k
      = (merged.map g.key).count k := by
    intro k
    have hfirst := hfirst k
    have hagain := g.count_mergeLists merged incoming k
    by_cases hk : g.pairable k = true
    · rw [if_pos hk] at hfirst hagain
      omega
    · have hmissing : (incoming.map g.key).count k = 0 := by
        refine List.count_eq_zero.2 fun hmem => ?_
        obtain ⟨item, hitem, rfl⟩ := List.mem_map.1 hmem
        exact hk (hincoming item hitem)
      rw [if_neg hk] at hagain
      omega
  have hlength := (List.perm_iff_count.2 hcount).length_eq
  rw [List.length_map, List.length_map, g.mergeLists_eq merged incoming,
    List.length_append, g.length_united] at hlength
  exact List.eq_nil_of_length_eq_zero (by omega)

end Grouping

end FilmCatalog
