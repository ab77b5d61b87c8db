/-
  FilmCatalog.Proofs.Matching.Counting
  ────────────────────────────────────
  **THE NUMBER OF MATCHED ELEMENTS.**

  What matches in two sequences is told by recursion (`Overlap`): nothing if
  they have no element in common, and else their first longest block, what
  matches before it and what matches behind it.

      overlap a b = size + overlap (before) (before) + overlap (behind) (behind)

  The comparison goes another way.  It keeps a stack of windows and a count,
  and each round takes one window off (`Round`):

    • `round_step` — a round keeps the sum of the count and of what the stack
      will still give, and makes the stack cheaper,
    • `round_run` — so does a run,
    • `totalOverlap_countMatches` — the stack gives what matches in its windows,
    • `matchCount_of_rounds` — every run ends, with the number told by
      recursion.
-/
import Mathlib.Logic.Relation
import FilmCatalog.Proofs.Matching.Blocks

namespace FilmCatalog.Matching

variable {α : Type}

/-! ## §1. What matches, by recursion. -/

/-- **So many elements match** in two sequences: none if they share no element,
and else those of the first longest block, with what matches on its left and on
its right. -/
inductive Overlap : List α → List α → Nat → Prop
  | apart {a b : List α} (h : ∀ x ∈ a, x ∉ b) : Overlap a b 0
  | around {a b : List α} {block : Block} {m n : Nat} (h : ∃ x ∈ a, x ∈ b)
      (hblock : IsFirstLongest a b block)
      (hleft : Overlap (a.take block.i) (b.take block.j) m)
      (hright : Overlap (a.drop (block.i + block.size)) (b.drop (block.j + block.size)) n) :
      Overlap a b (block.size + m + n)

/-- The recursion gives one number at most. -/
theorem Overlap.unique {a b : List α} {m n : Nat} (hm : Overlap a b m) (hn : Overlap a b n) :
    m = n := by
  induction hm generalizing n with
  | apart h =>
    cases hn with
    | apart => rfl
    | around hshared =>
      obtain ⟨x, hx, hmem⟩ := hshared
      exact absurd hmem (h x hx)
  | around hshared hblock _ _ ihleft ihright =>
    cases hn with
    | apart h =>
      obtain ⟨x, hx, hmem⟩ := hshared
      exact absurd hmem (h x hx)
    | around _ hother hleft hright =>
      cases hblock.unique hother
      rw [ihleft hleft, ihright hright]

theorem overlap_nil_left (b : List α) : Overlap [] b 0 := .apart (by simp)

theorem overlap_nil_right (a : List α) : Overlap a [] 0 := .apart (by simp)

/-- There is a block to take if the sequences share an element. -/
theorem IsFirstLongest.size_ne_zero_iff {a b : List α} {block : Block}
    (h : IsFirstLongest a b block) : block.size ≠ 0 ↔ ∃ x ∈ a, x ∈ b := by
  constructor
  · intro hsize
    -- The first element of the block is shared.
    obtain ⟨hi, _, hsame⟩ := (common_iff a b block.i block.j block.size).1 h.1
    have hlt : block.i < a.length := by omega
    have hfirst : a[block.i]? = b[block.j]? := hsame 0 (Nat.pos_of_ne_zero hsize)
    rw [List.getElem?_eq_getElem hlt] at hfirst
    exact ⟨a[block.i], List.getElem_mem hlt, List.mem_of_getElem? hfirst.symm⟩
  · rintro ⟨x, ha, hb⟩
    -- A shared element is a block of its own.
    obtain ⟨i, hi⟩ := List.mem_iff_getElem?.1 ha
    obtain ⟨j, hj⟩ := List.mem_iff_getElem?.1 hb
    have hcommon : Common a b ⟨i, j, 1⟩ := by
      refine (common_iff a b i j 1).2 ⟨(List.getElem?_eq_some_iff.1 hi).1,
        (List.getElem?_eq_some_iff.1 hj).1, fun t ht => ?_⟩
      rw [Nat.lt_one_iff.1 ht, Nat.add_zero, Nat.add_zero, hi, hj]
    have hahead := h.2 _ hcommon
    unfold Ahead at hahead
    simp only at hahead
    omega

/-! ## §2. Windows. -/

theorem take_slice (items : List α) {start stop k : Nat} (h : start + k ≤ stop) :
    (slice items start stop).take k = slice items start (start + k) := by
  unfold slice
  rw [List.take_drop, List.take_take, Nat.min_eq_left h]

theorem drop_slice (items : List α) (start stop k : Nat) :
    (slice items start stop).drop k = slice items (start + k) stop := by
  unfold slice
  rw [List.drop_drop]

theorem length_slice (items : List α) (start stop : Nat) :
    (slice items start stop).length = min stop items.length - start := by
  unfold slice
  rw [List.length_drop, List.length_take]

theorem slice_eq_nil (items : List α) {start stop : Nat} (h : stop ≤ start) :
    slice items start stop = [] := by
  refine List.eq_nil_of_length_eq_zero ?_
  rw [length_slice]
  omega

/-- What matches in some windows, all together. -/
inductive TotalOverlap (a b : List α) : List Window → Nat → Prop
  | nil : TotalOverlap a b [] 0
  | cons {w : Window} {pending : List Window} {m n : Nat}
      (hhead : Overlap (slice a w.aStart w.aStop) (slice b w.bStart w.bStop) m)
      (hrest : TotalOverlap a b pending n) : TotalOverlap a b (w :: pending) (m + n)

theorem totalOverlap_append {a b : List α} {v w : List Window} {n : Nat}
    (h : TotalOverlap a b (v ++ w) n) :
    ∃ k m, n = k + m ∧ TotalOverlap a b v k ∧ TotalOverlap a b w m := by
  induction v generalizing n with
  | nil => exact ⟨0, n, (Nat.zero_add n).symm, .nil, h⟩
  | cons head rest ih =>
    cases h with
    | cons hhead hrest =>
      obtain ⟨k, m, rfl, hk, hm⟩ := ih hrest
      exact ⟨_, m, (Nat.add_assoc _ k m).symm, .cons hhead hk, hm⟩

theorem TotalOverlap.single {a b : List α} {w : Window} {n : Nat} (h : TotalOverlap a b [w] n) :
    Overlap (slice a w.aStart w.aStop) (slice b w.bStart w.bStop) n := by
  cases h with
  | cons hhead hrest =>
    cases hrest
    exact hhead

/-- A window that is left out because one side is empty would give nothing. -/
theorem overlap_of_optional {a b : List α} {s t u v n : Nat}
    (h : TotalOverlap a b (if s < t ∧ u < v then [⟨s, t, u, v⟩] else []) n) :
    Overlap (slice a s t) (slice b u v) n := by
  split at h
  · exact h.single
  · cases h
    by_cases ha : s < t
    · rw [slice_eq_nil b (by omega : v ≤ u)]
      exact overlap_nil_right _
    · rw [slice_eq_nil a (by omega : t ≤ s)]
      exact overlap_nil_left _

/-! ## §3. What the stack gives. -/

variable [DecidableEq α]

/-- What matches in a window: its longest block, and what matches in the parts
beside it. -/
theorem overlap_of_parts {a b : List α} {w : Window} (hsize : (longestMatch a b w).size ≠ 0) {n : Nat}
    (h : TotalOverlap a b (parts w (longestMatch a b w)) n) :
    Overlap (slice a w.aStart w.aStop) (slice b w.bStart w.bStop)
      ((longestMatch a b w).size + n) := by
  have hblock := isFirstLongest_longestBlock (slice a w.aStart w.aStop) (slice b w.bStart w.bStop)
  have hi := hblock.1.inFirst
  have hj := hblock.1.inSecond
  rw [length_slice] at hi hj
  obtain ⟨k, m, rfl, hright, hleft⟩ := totalOverlap_append h
  -- The parts beside the block are slices of the slices.
  have hbehind := overlap_of_optional hright
  have hbefore := overlap_of_optional hleft
  have hsize' : (longestBlock (slice a w.aStart w.aStop) (slice b w.bStart w.bStop)).size ≠ 0 := hsize
  simp only [longestMatch, Nat.add_assoc] at hbehind hbefore ⊢
  rw [← drop_slice, ← drop_slice] at hbehind
  rw [← take_slice a (by omega : w.aStart + _ ≤ w.aStop),
    ← take_slice b (by omega : w.bStart + _ ≤ w.bStop)] at hbefore
  have hoverlap := Overlap.around (hblock.size_ne_zero_iff.1 hsize) hblock hbefore hbehind
  rwa [Nat.add_assoc, Nat.add_comm m k] at hoverlap

/-- **The stack gives what matches in its windows.** -/
theorem totalOverlap_countMatches (a b : List α) (pending : List Window) :
    TotalOverlap a b pending (countMatches a b pending) := by
  induction pending using countMatches.induct a b with
  | case1 =>
    rw [countMatches]
    exact .nil
  | case2 w pending hsize ih =>
    rw [countMatches, if_pos hsize]
    have hblock :=
      isFirstLongest_longestBlock (slice a w.aStart w.aStop) (slice b w.bStart w.bStop)
    have hnone : Overlap (slice a w.aStart w.aStop) (slice b w.bStart w.bStop) 0 :=
      .apart fun x ha hb => hblock.size_ne_zero_iff.2 ⟨x, ha, hb⟩ hsize
    have hall := TotalOverlap.cons hnone ih
    rwa [Nat.zero_add] at hall
  | case3 w pending hsize ih =>
    rw [countMatches, if_neg hsize]
    obtain ⟨k, m, hsum, hparts, hrest⟩ := totalOverlap_append ih
    rw [hsum, ← Nat.add_assoc]
    exact .cons (overlap_of_parts hsize hparts) hrest

/-- The number is what the recursion tells. -/
theorem overlap_matchCount (a b : List α) : Overlap a b (matchCount a b) := by
  have h := (totalOverlap_countMatches a b [⟨0, a.length, 0, b.length⟩]).single
  unfold slice at h
  rwa [List.drop_zero, List.drop_zero, List.take_length, List.take_length] at h

/-! ## §4. Rounds. -/

/-- **One round**: the first window of the stack is taken off.  Its longest block
is counted, and the parts beside the block go on the stack; without a block the
window is done with. -/
inductive Round (a b : List α) : Nat × List Window → Nat × List Window → Prop
  | skip {count : Nat} {w : Window} {pending : List Window}
      (h : (longestMatch a b w).size = 0) : Round a b (count, w :: pending) (count, pending)
  | take {count : Nat} {w : Window} {pending : List Window}
      (h : (longestMatch a b w).size ≠ 0) :
      Round a b (count, w :: pending)
        (count + (longestMatch a b w).size, parts w (longestMatch a b w) ++ pending)

/-- **What a round does**: the count and what is still to come stay the same
together, and the stack gets cheaper. -/
theorem round_step {a b : List α} {state next : Nat × List Window} (h : Round a b state next) :
    next.1 + countMatches a b next.2 = state.1 + countMatches a b state.2 ∧
      totalCost next.2 < totalCost state.2 := by
  cases h with
  | skip hsize =>
    simp only [countMatches, if_pos hsize, totalCost, Window.cost, true_and]
    omega
  | take hsize =>
    have hcost := cost_parts_lt hsize (i_longestMatch hsize).1 (i_longestMatch hsize).2
    simp only [totalCost_append, totalCost]
    rw [countMatches, if_neg hsize]
    omega

/-- **What a run does.** -/
theorem round_run {a b : List α} {state last : Nat × List Window}
    (h : Relation.ReflTransGen (Round a b) state last) :
    last.1 + countMatches a b last.2 = state.1 + countMatches a b state.2 := by
  induction h with
  | refl => rfl
  | tail _ hlast ih => exact (round_step hlast).1.trans ih

/-- As long as there is a window, there is a round. -/
theorem exists_round (a b : List α) (count : Nat) (w : Window) (pending : List Window) :
    ∃ next, Round a b (count, w :: pending) next := by
  by_cases h : (longestMatch a b w).size = 0
  · exact ⟨_, .skip h⟩
  · exact ⟨_, .take h⟩

/-- A run that cannot go on has emptied the stack and counted all. -/
theorem last_of_run {a b : List α} {state last : Nat × List Window}
    (hrun : Relation.ReflTransGen (Round a b) state last) (hlast : ∀ next, ¬ Round a b last next) :
    last = (state.1 + countMatches a b state.2, []) := by
  obtain ⟨count, pending⟩ := last
  cases pending with
  | nil =>
    have hcount : count + countMatches a b [] = _ := round_run hrun
    rw [countMatches, Nat.add_zero] at hcount
    rw [hcount]
  | cons w pending =>
    obtain ⟨next, hnext⟩ := exists_round a b count w pending
    exact absurd hnext (hlast next)

/-- Rounds cannot go on for ever. -/
theorem wellFounded_round (a b : List α) : WellFounded fun next state => Round a b state next :=
  Subrelation.wf (fun h => (round_step h).2)
    (InvImage.wf (fun state : Nat × List Window => totalCost state.2) Nat.lt_wfRel.wf)

/-- Every stack is emptied. -/
theorem exists_last (a b : List α) (state : Nat × List Window) :
    ∃ last, Relation.ReflTransGen (Round a b) state last ∧ ∀ next, ¬ Round a b last next := by
  induction state using (wellFounded_round a b).induction with
  | h state ih =>
    by_cases h : ∃ next, Round a b state next
    · obtain ⟨next, hnext⟩ := h
      obtain ⟨last, hrun, hlast⟩ := ih next hnext
      exact ⟨last, .head hnext hrun, hlast⟩
    · exact ⟨state, .refl, fun next hnext => h ⟨next, hnext⟩⟩

/-- **The comparison counts what matches.**  It cannot go on for ever.  From the
whole sequences it comes to an empty stack, whenever it cannot go on, and its
count is the one number that the recursion tells. -/
theorem matchCount_of_rounds (a b : List α) :
    WellFounded (fun next state => Round a b state next) ∧
      Relation.ReflTransGen (Round a b) (0, [⟨0, a.length, 0, b.length⟩]) (matchCount a b, []) ∧
      (∀ last, Relation.ReflTransGen (Round a b) (0, [⟨0, a.length, 0, b.length⟩]) last →
        (∀ next, ¬ Round a b last next) → last = (matchCount a b, [])) ∧
      ∀ n, Overlap a b n ↔ n = matchCount a b := by
  have hends : ∀ last, Relation.ReflTransGen (Round a b) (0, [⟨0, a.length, 0, b.length⟩]) last →
      (∀ next, ¬ Round a b last next) → last = (matchCount a b, []) := by
    intro last hrun hlast
    rw [last_of_run hrun hlast, Nat.zero_add]
    rfl
  refine ⟨wellFounded_round a b, ?_, hends, fun n => ⟨fun h => ?_, fun h => ?_⟩⟩
  · obtain ⟨last, hrun, hlast⟩ := exists_last a b (0, [⟨0, a.length, 0, b.length⟩])
    rwa [hends last hrun hlast] at hrun
  · exact h.unique (overlap_matchCount a b)
  · rw [h]
    exact overlap_matchCount a b

end FilmCatalog.Matching
