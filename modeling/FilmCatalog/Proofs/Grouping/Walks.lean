/-
  FilmCatalog.Proofs.Grouping.Walks
  ─────────────────────────────────
  **WHICH ITEMS A WALK PAIRS.**

  A walk meets the items of two lists in ranked order.  What comes of it can be
  told without a walk, if the rule *groups* items by a key: among the items of
  one key each has a rank, the number of items ahead of it, and the stored item
  of a rank is paired with the incoming item of the same rank.

    • `Grouping` — a key, an order within a key, and what ties them to the rule,
    • `getElem?_rank` — the rank of an entry is its place among those of its key,
    • `told` — stored entries, each united with its partner, and incoming
      entries without one,
    • `weave_perm` — that is what a walk gives, up to the order of its items.
-/
import Mathlib.Data.List.Find
import Mathlib.Data.List.Pairwise
import FilmCatalog.Proofs.Weave

namespace FilmCatalog

open WeaveRule

/-! ## §1. Groups and ranks. -/

/-- **How a rule groups items**: by a key that pairs share, and within a key by
what comes ahead. -/
structure Grouping {α : Type} (rule : WeaveRule α) (κ : Type) where
  key : α → κ
  /-- Whether the items of a key are paired at all. -/
  pairable : κ → Bool
  /-- Whether an item with its position comes ahead of another of its key. -/
  ahead : α × Nat → α × Nat → Bool
  le_trans : ∀ a b c, rule.le a b = true → rule.le b c = true → rule.le a c = true
  le_total : ∀ a b, (rule.le a b || rule.le b a) = true
  /-- On a walk the items of a key stand next to each other. -/
  key_between : ∀ a b c, rule.le a b = true → rule.le b c = true → key a = key c → key b = key a
  pairs_iff : ∀ a b, rule.pairs a b = true ↔ pairable (key a) = true ∧ key a = key b
  ahead_irrefl : ∀ entry, ahead entry entry = false
  /-- What comes ahead is what a walk meets first. -/
  ahead_of_le : ∀ a b : α × Nat, key a.1 = key b.1 → rule.le a.1 b.1 = true →
    (rule.le b.1 a.1 = true → a.2 < b.2) → ahead a b = true ∧ ahead b a = false
  /-- A union has the key and the position of the stored item. -/
  key_unite : ∀ older newer, key (rule.unite older newer).1 = key older.1
  position_unite : ∀ older newer, (rule.unite older newer).2 = older.2

/-- Entries in the order of a walk: ranked, and by position where the rule does
not tell items apart. -/
def WeaveRule.Walk {α : Type} (rule : WeaveRule α) (entries : List (α × Nat)) : Prop :=
  entries.Pairwise fun a b => rule.le a.1 b.1 = true ∧ (rule.le b.1 a.1 = true → a.2 < b.2)

namespace Grouping

variable {α κ : Type} {rule : WeaveRule α} (g : Grouping rule κ)

/-! ## §2. Walks. -/

section Walks

include g

/-- Items that the rule does not tell apart keep their order. -/
theorem filter_ranked_tied (items : List α) (offset : Nat) (item : α) :
    (rule.ranked items offset).filter (fun entry => rule.le item entry.1 && rule.le entry.1 item)
      = (items.zipIdx offset).filter
          (fun entry => rule.le item entry.1 && rule.le entry.1 item) := by
  have htied : ((items.zipIdx offset).filter
      (fun entry => rule.le item entry.1 && rule.le entry.1 item)).Pairwise
        fun a b => rule.le a.1 b.1 = true := by
    refine List.pairwise_of_forall_mem_list fun a ha b hb => ?_
    obtain ⟨_, ha⟩ := List.mem_filter.1 ha
    obtain ⟨_, hb⟩ := List.mem_filter.1 hb
    rw [Bool.and_eq_true] at ha hb
    exact g.le_trans _ _ _ ha.2 hb.1
  -- Stability: a sorted part of a list is a sublist of the sorted list.
  have hsublist := (List.sublist_mergeSort (fun a b c => g.le_trans a.1 b.1 c.1)
    (fun a b => g.le_total a.1 b.1) htied List.filter_sublist).filter
      fun entry => rule.le item entry.1 && rule.le entry.1 item
  rw [List.filter_filter] at hsublist
  simp only [Bool.and_self] at hsublist
  refine (hsublist.eq_of_length ?_).symm
  exact ((rule.ranked_perm items offset).filter _).length_eq.symm

/-- **A ranking is a walk.** -/
theorem walk_ranked (items : List α) (offset : Nat) : rule.Walk (rule.ranked items offset) := by
  have hsorted : (rule.ranked items offset).Pairwise fun a b => rule.le a.1 b.1 = true :=
    List.pairwise_mergeSort (fun a b c => g.le_trans a.1 b.1 c.1)
      (fun a b => g.le_total a.1 b.1) (items.zipIdx offset)
  refine List.pairwise_iff_forall_sublist.2 fun {a b} hab => ?_
  have hle := List.pairwise_iff_forall_sublist.1 hsorted hab
  refine ⟨hle, fun hge => ?_⟩
  -- Both are tied with the first, and there the positions increase.
  have hkept := hab.filter fun entry => rule.le a.1 entry.1 && rule.le entry.1 a.1
  have hrefl : rule.le a.1 a.1 = true := by simpa using g.le_total a.1 a.1
  rw [g.filter_ranked_tied items offset a.1] at hkept
  simp only [List.filter_cons, hrefl, hle, hge, Bool.and_self, if_true, List.filter_nil] at hkept
  exact List.pairwise_iff_forall_sublist.1 (pairwise_zipIdx items offset)
    (hkept.trans List.filter_sublist)

/-- A stored head that the walk meets first, without a pair, pairs with nothing
that is still to come. -/
theorem alone_of_le {older newer : α × Nat} {incoming : List (α × Nat)}
    (hincoming : rule.Walk (newer :: incoming)) (hpairs : ¬ rule.pairs older.1 newer.1 = true)
    (hle : rule.le older.1 newer.1 = true) :
    ∀ b ∈ newer :: incoming, rule.pairs older.1 b.1 = false := by
  intro b hb
  rw [Bool.eq_false_iff]
  intro hab
  rcases List.mem_cons.1 hb with rfl | hb
  · exact hpairs hab
  · -- The other head stands between the two, so it has their key.
    obtain ⟨hpairable, hkey⟩ := (g.pairs_iff _ _).1 hab
    have hbetween := g.key_between _ _ _ hle ((List.pairwise_cons.1 hincoming).1 b hb).1 hkey
    exact hpairs ((g.pairs_iff _ _).2 ⟨hpairable, hbetween.symm⟩)

/-- The same for an incoming head. -/
theorem alone_of_not_le {older newer : α × Nat} {stored : List (α × Nat)}
    (hstored : rule.Walk (older :: stored)) (hpairs : ¬ rule.pairs older.1 newer.1 = true)
    (hle : ¬ rule.le older.1 newer.1 = true) :
    ∀ a ∈ older :: stored, rule.pairs a.1 newer.1 = false := by
  have hge : rule.le newer.1 older.1 = true := by
    have htotal := g.le_total older.1 newer.1
    simpa [hle] using htotal
  intro a ha
  rw [Bool.eq_false_iff]
  intro hab
  rcases List.mem_cons.1 ha with rfl | ha
  · exact hpairs hab
  · obtain ⟨hpairable, hkey⟩ := (g.pairs_iff _ _).1 hab
    have hbetween := g.key_between _ _ _ hge ((List.pairwise_cons.1 hstored).1 a ha).1 hkey.symm
    refine hpairs ((g.pairs_iff _ _).2 ⟨?_, hbetween⟩)
    rwa [hbetween, ← hkey]

end Walks

/-! ## §3. Ranks and pairs. -/

variable [DecidableEq κ]

/-- How many entries of the same key come ahead of an entry. -/
def rank (entries : List (α × Nat)) (entry : α × Nat) : Nat :=
  entries.countP fun other => g.key other.1 = g.key entry.1 && g.ahead other entry

/-- Whether a stored and an incoming entry are paired: they may be, and they
have the same rank. -/
def paired (stored incoming : List (α × Nat)) (older newer : α × Nat) : Bool :=
  rule.pairs older.1 newer.1 && g.rank stored older == g.rank incoming newer

/-- What becomes of a stored entry: it is united with its partner. -/
def settled (stored incoming : List (α × Nat)) (older : α × Nat) : α × Nat :=
  match incoming.find? fun newer => g.paired stored incoming older newer with
  | some newer => rule.unite older newer
  | none => older

/-- Whether an incoming entry has no partner. -/
def isLeft (stored incoming : List (α × Nat)) (newer : α × Nat) : Bool :=
  (stored.find? fun older => g.paired stored incoming older newer).isNone

theorem rank_head {head : α × Nat} {rest : List (α × Nat)} (h : rule.Walk (head :: rest)) :
    g.rank (head :: rest) head = 0 := by
  refine List.countP_eq_zero.2 fun other hother => ?_
  rcases List.mem_cons.1 hother with rfl | hother
  · simp [g.ahead_irrefl]
  · obtain ⟨hle, hposition⟩ := (List.pairwise_cons.1 h).1 other hother
    intro hcounted
    obtain ⟨hkey, hahead⟩ := Bool.and_eq_true_iff.1 hcounted
    have hnot := (g.ahead_of_le head other (of_decide_eq_true hkey).symm hle hposition).2
    rw [hnot] at hahead
    cases hahead

/-- Behind the head of a walk all ranks of its key are one higher. -/
theorem rank_tail {head entry : α × Nat} {rest : List (α × Nat)} (h : rule.Walk (head :: rest))
    (hentry : entry ∈ rest) :
    g.rank (head :: rest) entry
      = g.rank rest entry + if g.key head.1 = g.key entry.1 then 1 else 0 := by
  unfold rank
  rw [List.countP_cons]
  by_cases hkey : g.key head.1 = g.key entry.1
  · obtain ⟨hle, hposition⟩ := (List.pairwise_cons.1 h).1 entry hentry
    have hahead := (g.ahead_of_le head entry hkey hle hposition).1
    simp [hkey, hahead]
  · simp [hkey]

/-- **The rank of an entry is its place** on a walk among the entries of its
key. -/
theorem getElem?_rank {entries : List (α × Nat)} (h : rule.Walk entries) {entry : α × Nat}
    (hentry : entry ∈ entries) :
    (entries.filter fun other => g.key other.1 = g.key entry.1)[g.rank entries entry]?
      = some entry := by
  induction entries with
  | nil => cases hentry
  | cons head rest ih =>
    rcases List.mem_cons.1 hentry with hhead | hrest
    · rw [hhead, g.rank_head h, List.filter_cons, if_pos (by simp), List.getElem?_cons_zero]
    · have hplace := ih (List.pairwise_cons.1 h).2 hrest
      rw [g.rank_tail h hrest, List.filter_cons]
      by_cases hkey : g.key head.1 = g.key entry.1
      · rw [if_pos hkey, if_pos (by simpa using hkey), List.getElem?_cons_succ]
        exact hplace
      · rw [if_neg hkey, if_neg (by simpa using hkey)]
        exact hplace

/-- Within a key no rank is given twice. -/
theorem rank_inj {entries : List (α × Nat)} (h : rule.Walk entries) {a b : α × Nat}
    (ha : a ∈ entries) (hb : b ∈ entries) (hkey : g.key a.1 = g.key b.1)
    (hrank : g.rank entries a = g.rank entries b) : a = b := by
  have hplace := g.getElem?_rank h ha
  rw [hkey, hrank] at hplace
  exact Option.some.inj (hplace.symm.trans (g.getElem?_rank h hb))

/-! ## §4. What a walk pairs. -/

theorem key_of_paired {stored incoming : List (α × Nat)} {older newer : α × Nat}
    (h : g.paired stored incoming older newer = true) : g.key older.1 = g.key newer.1 :=
  ((g.pairs_iff _ _).1 (Bool.and_eq_true_iff.1 h).1).2

theorem paired_eq_false {stored incoming : List (α × Nat)} {older newer : α × Nat}
    (h : rule.pairs older.1 newer.1 = false) : g.paired stored incoming older newer = false := by
  unfold paired
  rw [h, Bool.false_and]

/-- Pairs are decided within their key: entries of other keys may be left out
on both sides. -/
theorem paired_congr {stored incoming others fresh : List (α × Nat)} {older newer : α × Nat}
    (h : rule.pairs older.1 newer.1 = true →
      (g.rank stored older = g.rank incoming newer ↔ g.rank others older = g.rank fresh newer)) :
    g.paired stored incoming older newer = g.paired others fresh older newer := by
  unfold paired
  cases hpairs : rule.pairs older.1 newer.1 with
  | false => rfl
  | true =>
    rw [Bool.true_and, Bool.true_and, Bool.eq_iff_iff, beq_iff_eq, beq_iff_eq]
    exact h hpairs

theorem settled_congr {stored incoming others fresh : List (α × Nat)} {older : α × Nat}
    (h : incoming.find? (g.paired stored incoming older) = fresh.find? (g.paired others fresh older)) :
    g.settled stored incoming older = g.settled others fresh older := by
  unfold settled
  rw [h]

/-- An entry without a partner stays what it is. -/
theorem settled_eq_self {stored incoming : List (α × Nat)} {older : α × Nat}
    (h : ∀ newer ∈ incoming, g.paired stored incoming older newer = false) :
    g.settled stored incoming older = older := by
  have hnone : incoming.find? (g.paired stored incoming older) = none :=
    List.find?_eq_none.2 fun newer hnewer => Bool.eq_false_iff.1 (h newer hnewer)
  unfold settled
  rw [hnone]

/-- What an incoming entry has to do with the rest of a walk does not depend on
a stored head that pairs with none of them. -/
theorem paired_skip_stored {head : α × Nat} {stored incoming : List (α × Nat)}
    (h : rule.Walk (head :: stored))
    (halone : ∀ newer ∈ incoming, rule.pairs head.1 newer.1 = false) {older newer : α × Nat}
    (holder : older ∈ stored) (hnewer : newer ∈ incoming) :
    g.paired (head :: stored) incoming older newer = g.paired stored incoming older newer := by
  refine g.paired_congr fun hpairs => ?_
  obtain ⟨hpairable, hkey⟩ := (g.pairs_iff _ _).1 hpairs
  have hne : g.key head.1 ≠ g.key older.1 := by
    intro heq
    have hboth := (g.pairs_iff head.1 newer.1).2 ⟨heq ▸ hpairable, heq.trans hkey⟩
    rw [halone newer hnewer] at hboth
    cases hboth
  rw [g.rank_tail h holder, if_neg hne, Nat.add_zero]

/-- The same with the sides exchanged. -/
theorem paired_skip_incoming {head : α × Nat} {stored incoming : List (α × Nat)}
    (h : rule.Walk (head :: incoming))
    (halone : ∀ older ∈ stored, rule.pairs older.1 head.1 = false) {older newer : α × Nat}
    (holder : older ∈ stored) (hnewer : newer ∈ incoming) :
    g.paired stored (head :: incoming) older newer = g.paired stored incoming older newer := by
  refine g.paired_congr fun hpairs => ?_
  obtain ⟨hpairable, hkey⟩ := (g.pairs_iff _ _).1 hpairs
  have hne : g.key head.1 ≠ g.key newer.1 := by
    intro heq
    have hboth := (g.pairs_iff older.1 head.1).2 ⟨hpairable, hkey.trans heq.symm⟩
    rw [halone older holder] at hboth
    cases hboth
  rw [g.rank_tail h hnewer, if_neg hne, Nat.add_zero]

/-- Two heads that pair are out of the way of all others. -/
theorem paired_skip_both {older newer : α × Nat} {stored incoming : List (α × Nat)}
    (hstored : rule.Walk (older :: stored)) (hincoming : rule.Walk (newer :: incoming))
    (hpairs : rule.pairs older.1 newer.1 = true) {a b : α × Nat} (ha : a ∈ stored)
    (hb : b ∈ incoming) :
    g.paired (older :: stored) (newer :: incoming) a b = g.paired stored incoming a b := by
  refine g.paired_congr fun hab => ?_
  have hheads := ((g.pairs_iff _ _).1 hpairs).2
  have hkeys := ((g.pairs_iff _ _).1 hab).2
  -- The two heads count for both entries or for none.
  rw [g.rank_tail hstored ha, g.rank_tail hincoming hb, hheads, hkeys]
  omega

/-- A head that is paired with the other head is paired with nobody else. -/
theorem paired_head_stored {older newer : α × Nat} {stored incoming : List (α × Nat)}
    (hstored : rule.Walk (older :: stored)) (hincoming : rule.Walk (newer :: incoming))
    (hpairs : rule.pairs older.1 newer.1 = true) {b : α × Nat} (hb : b ∈ incoming) :
    g.paired (older :: stored) (newer :: incoming) older b = false := by
  rw [Bool.eq_false_iff]
  intro hpaired
  have hkey := g.key_of_paired hpaired
  have hheads := ((g.pairs_iff _ _).1 hpairs).2
  have hrank := beq_iff_eq.1 (Bool.and_eq_true_iff.1 hpaired).2
  rw [g.rank_head hstored, g.rank_tail hincoming hb, if_pos (hheads.symm.trans hkey)] at hrank
  omega

theorem paired_head_incoming {older newer : α × Nat} {stored incoming : List (α × Nat)}
    (hstored : rule.Walk (older :: stored)) (hincoming : rule.Walk (newer :: incoming))
    (hpairs : rule.pairs older.1 newer.1 = true) {a : α × Nat} (ha : a ∈ stored) :
    g.paired (older :: stored) (newer :: incoming) a newer = false := by
  rw [Bool.eq_false_iff]
  intro hpaired
  have hkey := g.key_of_paired hpaired
  have hheads := ((g.pairs_iff _ _).1 hpairs).2
  have hrank := beq_iff_eq.1 (Bool.and_eq_true_iff.1 hpaired).2
  rw [g.rank_head hincoming, g.rank_tail hstored ha, if_pos (hheads.trans hkey.symm)] at hrank
  omega

theorem paired_heads {older newer : α × Nat} {stored incoming : List (α × Nat)}
    (hstored : rule.Walk (older :: stored)) (hincoming : rule.Walk (newer :: incoming))
    (hpairs : rule.pairs older.1 newer.1 = true) :
    g.paired (older :: stored) (newer :: incoming) older newer = true := by
  unfold paired
  rw [hpairs, g.rank_head hstored, g.rank_head hincoming]
  rfl

/-- What a walk makes of two lists, told by ranks: the stored entries, each
united with its partner, and the incoming entries without one. -/
def told (stored incoming : List (α × Nat)) : List (α × Nat) :=
  stored.map (g.settled stored incoming) ++ incoming.filter (g.isLeft stored incoming)

/-- Two heads that pair are united. -/
theorem told_both {older newer : α × Nat} {stored incoming : List (α × Nat)}
    (hstored : rule.Walk (older :: stored)) (hincoming : rule.Walk (newer :: incoming))
    (hpairs : rule.pairs older.1 newer.1 = true) :
    g.told (older :: stored) (newer :: incoming) = rule.unite older newer :: g.told stored incoming := by
  have hheads := g.paired_heads hstored hincoming hpairs
  have hsettled : g.settled (older :: stored) (newer :: incoming) older
      = rule.unite older newer := by
    unfold settled
    rw [List.find?_cons_of_pos hheads]
  have hrest : ∀ a ∈ stored, g.settled (older :: stored) (newer :: incoming) a
      = g.settled stored incoming a := by
    intro a ha
    refine g.settled_congr ?_
    rw [List.find?_cons_of_neg (Bool.eq_false_iff.1
      (g.paired_head_incoming hstored hincoming hpairs ha))]
    exact List.find?_congr fun b hb => g.paired_skip_both hstored hincoming hpairs ha hb
  have hleft : ∀ b ∈ incoming, g.isLeft (older :: stored) (newer :: incoming) b
      = g.isLeft stored incoming b := by
    intro b hb
    unfold isLeft
    simp only [List.find?_cons, g.paired_head_stored hstored hincoming hpairs hb]
    exact congrArg Option.isNone (List.find?_congr fun a ha =>
      g.paired_skip_both hstored hincoming hpairs ha hb)
  have hgone : ¬ g.isLeft (older :: stored) (newer :: incoming) newer = true := by
    unfold isLeft
    simp only [List.find?_cons, hheads, Option.isNone_some, Bool.false_eq_true, not_false_eq_true]
  unfold told
  rw [List.map_cons, hsettled, List.map_congr_left hrest, List.filter_cons_of_neg hgone,
    List.filter_congr hleft]
  rfl

/-- A stored head that pairs with nobody stays. -/
theorem told_stored {older : α × Nat} {stored incoming : List (α × Nat)}
    (hstored : rule.Walk (older :: stored))
    (halone : ∀ b ∈ incoming, rule.pairs older.1 b.1 = false) :
    g.told (older :: stored) incoming = older :: g.told stored incoming := by
  have hhead : ∀ b ∈ incoming, g.paired (older :: stored) incoming older b = false :=
    fun b hb => g.paired_eq_false (halone b hb)
  have hrest : ∀ a ∈ stored, g.settled (older :: stored) incoming a = g.settled stored incoming a :=
    fun a ha => g.settled_congr (List.find?_congr fun b hb =>
      g.paired_skip_stored hstored halone ha hb)
  have hleft : ∀ b ∈ incoming, g.isLeft (older :: stored) incoming b
      = g.isLeft stored incoming b := by
    intro b hb
    unfold isLeft
    simp only [List.find?_cons, hhead b hb]
    exact congrArg Option.isNone (List.find?_congr fun a ha =>
      g.paired_skip_stored hstored halone ha hb)
  unfold told
  rw [List.map_cons, g.settled_eq_self hhead, List.map_congr_left hrest, List.filter_congr hleft]
  rfl

/-- An incoming head that pairs with nobody is added. -/
theorem told_incoming {newer : α × Nat} {stored incoming : List (α × Nat)}
    (hincoming : rule.Walk (newer :: incoming))
    (halone : ∀ a ∈ stored, rule.pairs a.1 newer.1 = false) :
    (g.told stored (newer :: incoming)).Perm (newer :: g.told stored incoming) := by
  have hhead : ∀ a ∈ stored, g.paired stored (newer :: incoming) a newer = false :=
    fun a ha => g.paired_eq_false (halone a ha)
  have hrest : ∀ a ∈ stored, g.settled stored (newer :: incoming) a
      = g.settled stored incoming a := by
    intro a ha
    refine g.settled_congr ?_
    rw [List.find?_cons_of_neg (Bool.eq_false_iff.1 (hhead a ha))]
    exact List.find?_congr fun b hb => g.paired_skip_incoming hincoming halone ha hb
  have hleft : ∀ b ∈ incoming, g.isLeft stored (newer :: incoming) b = g.isLeft stored incoming b :=
    fun b hb => congrArg Option.isNone (List.find?_congr fun a ha =>
      g.paired_skip_incoming hincoming halone ha hb)
  have hkept : g.isLeft stored (newer :: incoming) newer = true := by
    unfold isLeft
    rw [Option.isNone_iff_eq_none, List.find?_eq_none]
    exact fun a ha => Bool.eq_false_iff.1 (hhead a ha)
  unfold told
  rw [List.map_congr_left hrest, List.filter_cons_of_pos hkept, List.filter_congr hleft]
  exact List.perm_middle

/-- **A walk gives what is told by ranks.** -/
theorem weave_perm {stored incoming : List (α × Nat)} (hstored : rule.Walk stored)
    (hincoming : rule.Walk incoming) :
    (rule.weave stored incoming).Perm (g.told stored incoming) := by
  -- Along the walk; each head that is done with changes no pair among the rest.
  induction stored, incoming using weave.induct rule with
  | case1 incoming =>
    have hleft : incoming.filter (g.isLeft [] incoming) = incoming :=
      List.filter_eq_self.2 fun newer _ => rfl
    rw [weave, told, List.map_nil, List.nil_append, hleft]
  | case2 older stored =>
    have hsettled : (older :: stored).map (g.settled (older :: stored) []) = older :: stored :=
      (List.map_congr_left fun a _ => g.settled_eq_self fun _ hb => absurd hb List.not_mem_nil).trans
        (List.map_id _)
    rw [weave, told, hsettled, List.filter_nil, List.append_nil]
  | case3 older stored newer incoming hpairs ih =>
    rw [weave, if_pos hpairs, g.told_both hstored hincoming hpairs]
    exact (ih (List.pairwise_cons.1 hstored).2 (List.pairwise_cons.1 hincoming).2).cons _
  | case4 older stored newer incoming hpairs hle ih =>
    rw [weave, if_neg hpairs, if_pos hle,
      g.told_stored hstored (g.alone_of_le hincoming hpairs hle)]
    exact (ih (List.pairwise_cons.1 hstored).2 hincoming).cons _
  | case5 older stored newer incoming hpairs hle ih =>
    rw [weave, if_neg hpairs, if_neg hle]
    refine ((ih hstored (List.pairwise_cons.1 hincoming).2).cons newer).trans ?_
    exact (g.told_incoming hincoming (g.alone_of_not_le hstored hpairs hle)).symm

end Grouping

end FilmCatalog
