/-
  FilmCatalog.Proofs.Grouping.Classes
  ───────────────────────────────────
  **WALKS, ONE KEY AT A TIME.**

  A rule may put a union at the place of the incoming item; then the stored
  items do not stay where they are, and a merged list has to be told in
  another way.  Two facts are enough for that:

      walk of one key  =  heads united  ++  stored rest  ++  incoming rest

    • `ofKey_weave` — a walk treats every key by itself, and unites the
      entries of a key in their order, as long as both sides have one,
    • `mergeLists_eq_kept` — if a union is always one of the two entries, the
      merged list is a part of the stored list and then a part of the incoming
      one.
-/
import Mathlib.Data.List.Perm.Subperm
import FilmCatalog.Proofs.Grouping.Lists

namespace FilmCatalog

namespace WeaveRule

variable {α : Type} (rule : WeaveRule α)

/-! ## §1. The same walk in place. -/

/-- The rule that ranks and pairs like another one, and leaves every stored item
as it is, where it is. -/
def inPlace : WeaveRule α := { rule with unite := fun stored _ => stored }

/-- If everything pairs, entries are united in their order, and the longer side
keeps its rest. -/
theorem weave_of_pairs (stored incoming : List (α × Nat))
    (h : ∀ older ∈ stored, ∀ newer ∈ incoming, rule.pairs older.1 newer.1 = true) :
    rule.weave stored incoming
      = List.zipWith rule.unite stored incoming
          ++ (stored.drop incoming.length ++ incoming.drop stored.length) := by
  induction stored generalizing incoming with
  | nil =>
    rw [weave]
    simp
  | cons older stored ih =>
    cases incoming with
    | nil =>
      rw [weave]
      simp
    | cons newer incoming =>
      rw [weave, if_pos (h older List.mem_cons_self newer List.mem_cons_self),
        ih incoming fun a ha b hb => h a (List.mem_cons_of_mem _ ha) b (List.mem_cons_of_mem _ hb)]
      rfl

end WeaveRule

open WeaveRule

namespace Grouping

variable {α κ : Type} {rule : WeaveRule α} (g : Grouping rule.inPlace κ) [DecidableEq κ]

/-! ## §2. The entries of a key. -/

/-- The entries of a key. -/
def ofKey (k : κ) (entries : List (α × Nat)) : List (α × Nat) :=
  entries.filter fun entry => g.key entry.1 = k

theorem ofKey_cons_of_eq {k : κ} {head : α × Nat} {rest : List (α × Nat)} (h : g.key head.1 = k) :
    g.ofKey k (head :: rest) = head :: g.ofKey k rest :=
  List.filter_cons_of_pos (decide_eq_true h)

theorem ofKey_cons_of_ne {k : κ} {head : α × Nat} {rest : List (α × Nat)} (h : g.key head.1 ≠ k) :
    g.ofKey k (head :: rest) = g.ofKey k rest :=
  List.filter_cons_of_neg (by simpa using h)

theorem ofKey_eq_nil {k : κ} {entries : List (α × Nat)} (h : ∀ entry ∈ entries, g.key entry.1 ≠ k) :
    g.ofKey k entries = [] :=
  List.filter_eq_nil_iff.2 fun entry hentry => by simpa using h entry hentry

theorem mem_ofKey {k : κ} {entries : List (α × Nat)} {entry : α × Nat} :
    entry ∈ g.ofKey k entries ↔ entry ∈ entries ∧ g.key entry.1 = k := by
  simp [ofKey]

/-- A walk treats a key as if there were no other. -/
theorem ofKey_weave_eq_weave {k : κ} (hk : g.pairable k = true)
    (hunite : ∀ older newer, g.key older.1 = g.key newer.1 →
      g.key (rule.unite older newer).1 = g.key older.1)
    {stored incoming : List (α × Nat)} (hstored : rule.Walk stored) (hincoming : rule.Walk incoming) :
    g.ofKey k (rule.weave stored incoming) = rule.weave (g.ofKey k stored) (g.ofKey k incoming) := by
  induction stored, incoming using weave.induct rule with
  | case1 incoming =>
    rw [weave]
    show _ = rule.weave [] _
    rw [weave]
  | case2 older stored =>
    rw [weave]
    show _ = rule.weave _ []
    rw [weave_nil]
  | case3 older stored newer incoming hpairs ih =>
    have hrest := ih (List.pairwise_cons.1 hstored).2 (List.pairwise_cons.1 hincoming).2
    have hheads : g.key older.1 = g.key newer.1 := ((g.pairs_iff _ _).1 hpairs).2
    rw [weave, if_pos hpairs]
    -- Both heads belong to the key, and so does their union, or none of the three does.
    by_cases h : g.key older.1 = k
    · rw [g.ofKey_cons_of_eq ((hunite _ _ hheads).trans h), g.ofKey_cons_of_eq h,
        g.ofKey_cons_of_eq (hheads.symm.trans h), weave, if_pos hpairs, hrest]
    · rw [g.ofKey_cons_of_ne fun hu => h ((hunite _ _ hheads).symm.trans hu), g.ofKey_cons_of_ne h,
        g.ofKey_cons_of_ne fun hn => h (hheads.trans hn), hrest]
  | case4 older stored newer incoming hpairs hle ih =>
    have hrest := ih (List.pairwise_cons.1 hstored).2 hincoming
    have halone := g.alone_of_le hincoming hpairs hle
    rw [weave, if_neg hpairs, if_pos hle]
    by_cases h : g.key older.1 = k
    · -- The other side has nothing of this key left.
      have hnone : g.ofKey k (newer :: incoming) = [] := by
        refine g.ofKey_eq_nil fun b hb hkey => ?_
        have hboth := (g.pairs_iff older.1 b.1).2 ⟨h ▸ hk, h.trans hkey.symm⟩
        rw [halone b hb] at hboth
        cases hboth
      rw [g.ofKey_cons_of_eq h, g.ofKey_cons_of_eq h, hrest, hnone, weave_nil, weave_nil]
    · rw [g.ofKey_cons_of_ne h, g.ofKey_cons_of_ne h, hrest]
  | case5 older stored newer incoming hpairs hle ih =>
    have hrest := ih hstored (List.pairwise_cons.1 hincoming).2
    have halone := g.alone_of_not_le hstored hpairs hle
    rw [weave, if_neg hpairs, if_neg hle]
    by_cases h : g.key newer.1 = k
    · have hnone : g.ofKey k (older :: stored) = [] := by
        refine g.ofKey_eq_nil fun a ha hkey => ?_
        have hboth := (g.pairs_iff a.1 newer.1).2 ⟨hkey ▸ hk, hkey.trans h.symm⟩
        rw [halone a ha] at hboth
        cases hboth
      rw [g.ofKey_cons_of_eq h, g.ofKey_cons_of_eq h, hrest, hnone, weave, weave]
    · rw [g.ofKey_cons_of_ne h, g.ofKey_cons_of_ne h, hrest]

/-- **A walk within a key** unites the entries in their order. -/
theorem ofKey_weave {k : κ} (hk : g.pairable k = true)
    (hunite : ∀ older newer, g.key older.1 = g.key newer.1 →
      g.key (rule.unite older newer).1 = g.key older.1)
    {stored incoming : List (α × Nat)} (hstored : rule.Walk stored) (hincoming : rule.Walk incoming) :
    g.ofKey k (rule.weave stored incoming)
      = List.zipWith rule.unite (g.ofKey k stored) (g.ofKey k incoming)
          ++ ((g.ofKey k stored).drop (g.ofKey k incoming).length
            ++ (g.ofKey k incoming).drop (g.ofKey k stored).length) := by
  rw [g.ofKey_weave_eq_weave hk hunite hstored hincoming]
  refine rule.weave_of_pairs _ _ fun older holder newer hnewer => ?_
  have holder := (g.mem_ofKey.1 holder).2
  have hnewer := (g.mem_ofKey.1 hnewer).2
  exact (g.pairs_iff older.1 newer.1).2 ⟨holder ▸ hk, holder.trans hnewer.symm⟩

end Grouping

/-! ## §3. Rules that choose. -/

namespace WeaveRule

variable {α : Type} (rule : WeaveRule α)

/-- A union is always one of the two entries. -/
def Chooses : Prop :=
  ∀ older newer, rule.unite older newer = older ∨ rule.unite older newer = newer

theorem weave_subperm (h : rule.Chooses) (stored incoming : List (α × Nat)) :
    (rule.weave stored incoming).Subperm (stored ++ incoming) := by
  induction stored, incoming using weave.induct rule with
  | case1 incoming =>
    rw [weave]
    exact List.Subperm.refl _
  | case2 older stored =>
    rw [weave, List.append_nil]
  | case3 older stored newer incoming hpairs ih =>
    rw [weave, if_pos hpairs]
    have hboth : (older :: newer :: (stored ++ incoming)).Perm
        (older :: stored ++ newer :: incoming) := List.perm_middle.symm.cons older
    refine List.Subperm.trans ?_ hboth.subperm
    rcases h older newer with hunite | hunite
    · rw [hunite]
      exact (List.subperm_cons older).2 (ih.trans List.Subperm.cons_self)
    · rw [hunite]
      exact ((List.subperm_cons newer).2 ih).trans List.Subperm.cons_self
  | case4 older stored newer incoming hpairs hle ih =>
    rw [weave, if_neg hpairs, if_pos hle]
    exact (List.subperm_cons older).2 ih
  | case5 older stored newer incoming hpairs hle ih =>
    rw [weave, if_neg hpairs, if_neg hle]
    exact ((List.subperm_cons newer).2 ih).trans List.perm_middle.symm.subperm

/-- The entries of a merge, in the order of the walk. -/
def walked (stored incoming : List α) : List (α × Nat) :=
  rule.weave (rule.ranked stored 0) (rule.ranked incoming stored.length)

section Chooses

variable [DecidableEq α]

/-- The stored items that a merge keeps. -/
def kept (stored incoming : List α) : List α :=
  (stored.zipIdx.filter (· ∈ rule.walked stored incoming)).map (·.1)

/-- The incoming items that a merge takes. -/
def taken (stored incoming : List α) : List α :=
  ((incoming.zipIdx stored.length).filter (· ∈ rule.walked stored incoming)).map (·.1)

theorem kept_sublist (stored incoming : List α) : (rule.kept stored incoming).Sublist stored := by
  have h : (rule.kept stored incoming).Sublist (stored.zipIdx.map (·.1)) :=
    List.filter_sublist.map _
  rwa [List.zipIdx_map_fst] at h

theorem taken_sublist (stored incoming : List α) : (rule.taken stored incoming).Sublist incoming := by
  have h : (rule.taken stored incoming).Sublist ((incoming.zipIdx stored.length).map (·.1)) :=
    List.filter_sublist.map _
  rwa [List.zipIdx_map_fst] at h

/-- **The merged list** has what was kept, and then what was taken. -/
theorem mergeLists_eq_kept (h : rule.Chooses) (stored incoming : List α) :
    rule.mergeLists stored incoming = rule.kept stored incoming ++ rule.taken stored incoming := by
  have horder : (stored.zipIdx ++ incoming.zipIdx stored.length).Pairwise fun a b => a.2 < b.2 := by
    have hpairwise := pairwise_zipIdx (stored ++ incoming) 0
    rwa [List.zipIdx_append, Nat.zero_add] at hpairwise
  have hsubperm : (rule.walked stored incoming).Subperm
      (stored.zipIdx ++ incoming.zipIdx stored.length) :=
    (rule.weave_subperm h _ _).trans
      ((rule.ranked_perm stored 0).append (rule.ranked_perm incoming stored.length)).subperm
  -- No entry comes twice, so the walk holds what the two lists have in common with it.
  have hnodup : (stored.zipIdx ++ incoming.zipIdx stored.length).Nodup :=
    horder.imp fun hlt heq => Nat.ne_of_lt hlt (congrArg Prod.snd heq)
  have hperm : (rule.walked stored incoming).Perm
      ((stored.zipIdx ++ incoming.zipIdx stored.length).filter
        (· ∈ rule.walked stored incoming)) := by
    obtain ⟨walk, hwalk, hsublist⟩ := hsubperm
    refine (List.perm_ext_iff_of_nodup (hwalk.nodup_iff.1 (hnodup.sublist hsublist))
      (hnodup.filter _)).2 fun entry => ?_
    simp only [List.mem_filter, decide_eq_true_eq]
    exact ⟨fun hentry => ⟨hsublist.subset (hwalk.mem_iff.2 hentry), hentry⟩, fun hentry => hentry.2⟩
  show restored (rule.walked stored incoming) = _
  rw [restored_eq hperm (horder.filter _), List.filter_append, List.map_append]
  rfl

end Chooses

end WeaveRule

end FilmCatalog
