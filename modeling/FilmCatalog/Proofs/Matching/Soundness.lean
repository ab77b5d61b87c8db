/-
  FilmCatalog.Proofs.Matching.Soundness
  ─────────────────────────────────────
  **WHAT MATCHES IS A COMMON SUBSEQUENCE.**

  A block splits both sequences at the same time, so what matches before it,
  the block itself and what matches behind it stand in this order in both:

      a  =  before  ++  block  ++  behind
      b  =  before' ++  block  ++  behind'

  Read from the inside out this gives a common subsequence with as many
  elements as were counted (`Overlap.exists_sublist`).  The count is therefore
  bounded by both lengths, nothing is counted only if nothing is shared
  (`Overlap.eq_zero_iff`), and all is counted only if the sequences are equal
  (`Overlap.double_eq_iff`).
-/
import Mathlib.Algebra.Order.Field.Rat
import FilmCatalog.Proofs.Matching.Counting

namespace FilmCatalog.Matching

variable {α : Type}

/-! ## §1. The subsequence. -/

/-- A sequence around one of its parts. -/
theorem take_slice_drop (items : List α) {start stop : Nat} (h : start ≤ stop) :
    items.take start ++ slice items start stop ++ items.drop stop = items := by
  have hfront : items.take start ++ slice items start stop = items.take stop := by
    unfold slice
    conv => rhs; rw [← List.take_append_drop start (items.take stop)]
    rw [List.take_take, Nat.min_eq_left h]
  rw [hfront, List.take_append_drop]

theorem Common.length_slice {a b : List α} {block : Block} (h : Common a b block) :
    (slice a block.i (block.i + block.size)).length = block.size := by
  have hi := h.inFirst
  rw [Matching.length_slice]
  omega

/-- **What matches is a common subsequence.** -/
theorem Overlap.exists_sublist {a b : List α} {n : Nat} (h : Overlap a b n) :
    ∃ common : List α, common.length = n ∧ common.Sublist a ∧ common.Sublist b := by
  induction h with
  | apart => exact ⟨[], rfl, List.nil_sublist _, List.nil_sublist _⟩
  | @around a b block m n _ hblock _ _ ihleft ihright =>
    obtain ⟨left, hm, hlefta, hleftb⟩ := ihleft
    obtain ⟨right, hn, hrighta, hrightb⟩ := ihright
    have hcommon := hblock.1
    refine ⟨left ++ slice a block.i (block.i + block.size) ++ right, ?_, ?_, ?_⟩
    · rw [List.length_append, List.length_append, hcommon.length_slice, hm, hn]
      omega
    · have hparts := (hlefta.append (.refl (slice a block.i (block.i + block.size)))).append hrighta
      rwa [take_slice_drop a (Nat.le_add_right _ _)] at hparts
    · -- In the second sequence the block is the same, at another place.
      rw [hcommon.same]
      have hparts := (hleftb.append (.refl (slice b block.j (block.j + block.size)))).append hrightb
      rwa [take_slice_drop b (Nat.le_add_right _ _)] at hparts

theorem Overlap.le_min {a b : List α} {n : Nat} (h : Overlap a b n) :
    n ≤ min a.length b.length := by
  obtain ⟨common, rfl, ha, hb⟩ := h.exists_sublist
  exact Nat.le_min.2 ⟨ha.length_le, hb.length_le⟩

/-! ## §2. Nothing and everything. -/

/-- Nothing matches exactly if nothing is shared. -/
theorem Overlap.eq_zero_iff {a b : List α} {n : Nat} (h : Overlap a b n) :
    n = 0 ↔ ∀ x ∈ a, x ∉ b := by
  cases h with
  | apart hapart => exact iff_of_true rfl hapart
  | around hshared hblock =>
    have hsize := hblock.size_ne_zero_iff.2 hshared
    obtain ⟨x, ha, hb⟩ := hshared
    exact iff_of_false (by omega) fun hapart => hapart x ha hb

/-- The first longest block of a sequence and itself is all of it. -/
theorem isFirstLongest_self (a : List α) : IsFirstLongest a a ⟨0, 0, a.length⟩ := by
  refine ⟨⟨by simp, by simp, rfl⟩, fun other hother => ?_⟩
  have hi := hother.inFirst
  unfold Ahead
  simp only
  omega

/-- All of a sequence matches itself. -/
theorem overlap_self (a : List α) : Overlap a a a.length := by
  cases a with
  | nil => exact overlap_nil_left []
  | cons x rest =>
    have hleft : Overlap ((x :: rest).take 0) ((x :: rest).take 0) 0 := overlap_nil_left _
    have hright : Overlap ((x :: rest).drop (0 + (x :: rest).length))
        ((x :: rest).drop (0 + (x :: rest).length)) 0 := by
      rw [Nat.zero_add, List.drop_length]
      exact overlap_nil_left []
    exact .around ⟨x, List.mem_cons_self, List.mem_cons_self⟩ (isFirstLongest_self _) hleft hright

/-- Everything matches exactly if the sequences are equal. -/
theorem Overlap.double_eq_iff {a b : List α} {n : Nat} (h : Overlap a b n) :
    2 * n = a.length + b.length ↔ a = b := by
  constructor
  · intro hall
    -- The common subsequence is as long as both, so it is both.
    obtain ⟨common, rfl, ha, hb⟩ := h.exists_sublist
    have hlea := ha.length_le
    have hleb := hb.length_le
    exact (ha.eq_of_length (by omega)).symm.trans (hb.eq_of_length (by omega))
  · rintro rfl
    rw [h.unique (overlap_self a), Nat.two_mul]

/-! ## §3. The count. -/

/-- A share of at most the whole is a ratio between nought and one. -/
theorem ratio_bounds {m t : Nat} (h : m ≤ t) : 0 ≤ (m : ℚ) / t ∧ (m : ℚ) / t ≤ 1 := by
  have hm : (0 : ℚ) ≤ m := Nat.cast_nonneg m
  have ht : (0 : ℚ) ≤ t := Nat.cast_nonneg t
  exact ⟨div_nonneg hm ht, div_le_one_of_le₀ (Nat.cast_le.2 h) ht⟩

variable [DecidableEq α]

/-- **The count is sound.**  The sequences have a common subsequence of as many
elements as are counted, so the count is bounded by both lengths and the ratio
lies between nought and one.  Nothing is counted exactly if no element is
shared, and everything exactly if the sequences are equal. -/
theorem matchCount_common_subsequence (a b : List α) :
    (∃ common : List α,
      common.length = matchCount a b ∧ common.Sublist a ∧ common.Sublist b) ∧
    matchCount a b ≤ min a.length b.length ∧
    (0 ≤ ((2 * matchCount a b : Nat) : ℚ) / (a.length + b.length : Nat) ∧
      ((2 * matchCount a b : Nat) : ℚ) / (a.length + b.length : Nat) ≤ 1) ∧
    (matchCount a b = 0 ↔ ∀ x ∈ a, x ∉ b) ∧
    (2 * matchCount a b = a.length + b.length ↔ a = b) := by
  have h := overlap_matchCount a b
  have hmin := h.le_min
  exact ⟨h.exists_sublist, hmin, ratio_bounds (by omega), h.eq_zero_iff, h.double_eq_iff⟩

end FilmCatalog.Matching
