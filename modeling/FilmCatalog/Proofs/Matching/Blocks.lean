/-
  FilmCatalog.Proofs.Matching.Blocks
  ──────────────────────────────────
  **THE FIRST LONGEST COMMON BLOCK.**

  Which block is taken does not depend on how it is found: of all blocks that
  two sequences have in common it is the longest one, of several the one that
  starts first in the first sequence, then in the second (`IsFirstLongest`).

  The scan meets blocks in the order of their ends.  After each element of a
  row it holds the first longest block of all that have ended so far:

    • `isRow_nextRow` — a row tells how long a block can be that ends at an
      element, and the next row follows from it,
    • `leads_step` — what one element of a row does to the best block,
    • `isFirstLongest_longestBlock` — the block that is left at the end.
-/
import FilmCatalog.Matching.Similarity

namespace FilmCatalog.Matching

variable {α : Type}

/-! ## §1. Common blocks. -/

/-- The block lies within both sequences and is the same in both. -/
structure Common (a b : List α) (block : Block) : Prop where
  inFirst : block.i + block.size ≤ a.length
  inSecond : block.j + block.size ≤ b.length
  same : slice a block.i (block.i + block.size) = slice b block.j (block.j + block.size)

/-- The block is longer than another one, or as long and does not start later. -/
def Ahead (x y : Block) : Prop :=
  y.size < x.size ∨ y.size = x.size ∧ (x.i < y.i ∨ x.i = y.i ∧ x.j ≤ y.j)

/-- **The first longest block** that two sequences have in common. -/
def IsFirstLongest (a b : List α) (block : Block) : Prop :=
  Common a b block ∧ ∀ other, Common a b other → Ahead block other

theorem IsFirstLongest.unique {a b : List α} {x y : Block} (hx : IsFirstLongest a b x)
    (hy : IsFirstLongest a b y) : x = y := by
  have hxy := hx.2 y hy.1
  have hyx := hy.2 x hx.1
  unfold Ahead at hxy hyx
  cases x
  cases y
  simp only [Block.mk.injEq] at hxy hyx ⊢
  omega

theorem getElem?_slice (items : List α) (start size t : Nat) :
    (slice items start (start + size))[t]? = if t < size then items[start + t]? else none := by
  unfold slice
  rw [List.getElem?_drop, List.getElem?_take]
  by_cases h : t < size
  · rw [if_pos h, if_pos (by omega)]
  · rw [if_neg h, if_neg (by omega)]

/-- The next element of a walk, and what is left behind it. -/
theorem getElem?_of_drop {items rest : List α} {e : Nat} {x : α} (h : items.drop e = x :: rest) :
    items[e]? = some x ∧ items.drop (e + 1) = rest := by
  constructor
  · have hhead := congrArg List.head? h
    rwa [List.head?_drop] at hhead
  · have htail := congrArg List.tail h
    rwa [List.tail_drop] at htail

/-- Element by element. -/
theorem common_iff (a b : List α) (i j size : Nat) :
    Common a b ⟨i, j, size⟩ ↔
      i + size ≤ a.length ∧ j + size ≤ b.length ∧ ∀ t < size, a[i + t]? = b[j + t]? := by
  constructor
  · rintro ⟨hi, hj, hsame⟩
    refine ⟨hi, hj, fun t ht => ?_⟩
    have h := congrArg (fun items => items[t]?) hsame
    simp only [getElem?_slice, if_pos ht] at h
    exact h
  · rintro ⟨hi, hj, hsame⟩
    refine ⟨hi, hj, List.ext_getElem? fun t => ?_⟩
    rw [getElem?_slice, getElem?_slice]
    split
    · rename_i ht
      exact hsame t ht
    · rfl

/-! ## §2. Where blocks end. -/

/-- A common block of some size ends before the positions `e` and `f`. -/
def Ends (a b : List α) (e f size : Nat) : Prop :=
  size ≤ e ∧ size ≤ f ∧ Common a b ⟨e - size, f - size, size⟩

theorem ends_zero {a b : List α} {e f : Nat} (he : e ≤ a.length) (hf : f ≤ b.length) :
    Ends a b e f 0 :=
  ⟨Nat.zero_le e, Nat.zero_le f, (common_iff _ _ _ _ _).2 ⟨he, hf, by simp⟩⟩

/-- A block ends one element later if it goes on with equal elements. -/
theorem ends_succ {a b : List α} {e f size : Nat} {x y : α} (hx : a[e]? = some x)
    (hy : b[f]? = some y) : Ends a b (e + 1) (f + 1) (size + 1) ↔ x = y ∧ Ends a b e f size := by
  have he := (List.getElem?_eq_some_iff.1 hx).1
  have hf := (List.getElem?_eq_some_iff.1 hy).1
  unfold Ends
  rw [Nat.add_sub_add_right, Nat.add_sub_add_right, common_iff, common_iff]
  constructor
  · rintro ⟨hle, hlf, _, _, hsame⟩
    have hlast := hsame size (by omega)
    rw [show e - size + size = e by omega, show f - size + size = f by omega, hx, hy] at hlast
    exact ⟨Option.some.inj hlast, by omega, by omega, by omega, by omega,
      fun t ht => hsame t (by omega)⟩
  · rintro ⟨hxy, hle, hlf, _, _, hsame⟩
    refine ⟨by omega, by omega, by omega, by omega, fun t ht => ?_⟩
    rcases Nat.lt_succ_iff_lt_or_eq.1 ht with ht | rfl
    · exact hsame t ht
    · rw [show e - t + t = e by omega, show f - t + t = f by omega, hx, hy, hxy]

/-- The row tells, for each element of the second sequence, the size of the
longest block that ends with it and before the position `e`. -/
structure IsRow (a b : List α) (e : Nat) (row : List Nat) : Prop where
  length : row.length = b.length
  longest : ∀ j size, row[j]? = some size → ∀ n, Ends a b e (j + 1) n ↔ n ≤ size

theorem isRow_zero (a b : List α) : IsRow a b 0 (b.map fun _ => 0) := by
  refine ⟨List.length_map _, fun j size hsize n => ?_⟩
  rw [List.getElem?_map, Option.map_eq_some_iff] at hsize
  obtain ⟨y, hy, rfl⟩ := hsize
  have hj := (List.getElem?_eq_some_iff.1 hy).1
  constructor
  · intro h
    exact h.1
  · intro h
    rw [Nat.le_zero.1 h]
    exact ends_zero (Nat.zero_le _) (by omega)

/-- The sizes that the next row looks back at. -/
theorem IsRow.before {a b : List α} {e : Nat} {row : List Nat} (h : IsRow a b e row)
    (he : e ≤ a.length) {j size : Nat} (hsize : (0 :: row)[j]? = some size) (n : Nat) :
    Ends a b e j n ↔ n ≤ size := by
  cases j with
  | zero =>
    cases hsize
    constructor
    · intro hends
      exact hends.2.1
    · intro hle
      rw [Nat.le_zero.1 hle]
      exact ends_zero he (Nat.zero_le _)
  | succ j => exact h.longest j size hsize n

/-! ## §3. The best block so far. -/

/-- The block is empty, or it has ended when the scan has passed the first `f`
elements of the row that belongs to the element `e`. -/
def Seen (e f : Nat) (block : Block) : Prop :=
  block.size = 0 ∨ block.i + block.size ≤ e ∨
    block.i + block.size = e + 1 ∧ block.j + block.size ≤ f

/-- The first longest block among those that have ended. -/
structure Leads (a b : List α) (e f : Nat) (best : Block) : Prop where
  common : Common a b best
  seen : Seen e f best
  ahead : ∀ other, Common a b other → Seen e f other → Ahead best other

theorem leads_start (a b : List α) : Leads a b 0 0 ⟨0, 0, 0⟩ := by
  refine ⟨(common_iff _ _ _ _ _).2 ⟨by simp, by simp, by simp⟩, .inl rfl, fun other _ hseen => ?_⟩
  unfold Seen at hseen
  unfold Ahead
  simp only
  omega

/-- A block that has ended just now is told by its size. -/
theorem ends_of_seen {a b : List α} {e f : Nat} {other : Block} (hcommon : Common a b other)
    (hseen : Seen e (f + 1) other) :
    Seen e f other ∨ other = ⟨e + 1 - other.size, f + 1 - other.size, other.size⟩ ∧
      Ends a b (e + 1) (f + 1) other.size := by
  obtain ⟨i, j, size⟩ := other
  unfold Seen at hseen ⊢
  simp only at hseen ⊢
  by_cases h : i + size = e + 1 ∧ j + size = f + 1
  · refine .inr ⟨?_, by omega, by omega, ?_⟩
    · rw [Block.mk.injEq]
      omega
    · rwa [show e + 1 - size = i by omega, show f + 1 - size = j by omega]
  · exact .inl (by omega)

/-- **One element of a row**: a longer block takes the lead. -/
theorem leads_step {a b : List α} {e f size : Nat} {best : Block} (h : Leads a b e f best)
    (hsize : ∀ n, Ends a b (e + 1) (f + 1) n ↔ n ≤ size) :
    Leads a b e (f + 1)
      (if best.size < size then ⟨e + 1 - size, f + 1 - size, size⟩ else best) := by
  obtain ⟨hcommon, hseen, hahead⟩ := h
  split
  · rename_i hlt
    obtain ⟨he, hf, hblock⟩ := (hsize size).2 (Nat.le_refl size)
    refine ⟨hblock, .inr (.inr ?_), fun other hother hnow => ?_⟩
    · simp only
      omega
    · rcases ends_of_seen hother hnow with hbefore | ⟨heq, hends⟩
      · -- What ended before is not longer than the best block of that time.
        have hbest := hahead other hother hbefore
        unfold Ahead at hbest ⊢
        simp only
        omega
      · have hle := (hsize _).1 hends
        rw [heq]
        unfold Ahead
        simp only
        omega
  · rename_i hnot
    refine ⟨hcommon, ?_, fun other hother hnow => ?_⟩
    · unfold Seen at hseen ⊢
      omega
    · rcases ends_of_seen hother hnow with hbefore | ⟨heq, hends⟩
      · exact hahead other hother hbefore
      · have hle := (hsize _).1 hends
        -- An empty block has been seen long ago, and any other one ends later than the best.
        by_cases hempty : other.size = 0
        · exact hahead other hother (.inl hempty)
        · rw [heq]
          unfold Seen at hseen
          unfold Ahead
          simp only
          omega

/-- **A whole row.** -/
theorem leads_better {a b : List α} {e : Nat} (row : List Nat) {f : Nat} {best : Block}
    (h : Leads a b e f best)
    (hrow : ∀ t size, row[t]? = some size → ∀ n, Ends a b (e + 1) (f + t + 1) n ↔ n ≤ size) :
    Leads a b e (f + row.length) (better e f row best) := by
  induction row generalizing f best with
  | nil => exact h
  | cons size rest ih =>
    have hnext := leads_step h (hrow 0 size rfl)
    have hrest := ih hnext fun t size hsize n => by
      have := hrow (t + 1) size (by rwa [List.getElem?_cons_succ]) n
      rwa [show f + 1 + t + 1 = f + (t + 1) + 1 by omega]
    rwa [show f + (size :: rest).length = f + 1 + rest.length by
      rw [List.length_cons]; omega]

/-- Behind a row comes the next one. -/
theorem Leads.next {a b : List α} {e : Nat} {best : Block} (h : Leads a b e b.length best) :
    Leads a b (e + 1) 0 best := by
  obtain ⟨hcommon, hseen, hahead⟩ := h
  refine ⟨hcommon, ?_, fun other hother hnow => hahead other hother ?_⟩
  · unfold Seen at hseen ⊢
    omega
  · have hj := hother.inSecond
    unfold Seen at hnow ⊢
    omega

/-! ## §4. The scan. -/

variable [DecidableEq α]

/-- **The next row.** -/
theorem isRow_nextRow {a b : List α} {e : Nat} {row : List Nat} {x : α} (h : IsRow a b e row)
    (hx : a[e]? = some x) : IsRow a b (e + 1) (nextRow b x row) := by
  have he := (List.getElem?_eq_some_iff.1 hx).1
  refine ⟨by simp [nextRow, h.length], fun j size hsize n => ?_⟩
  obtain ⟨y, before, hy, hbefore, hvalue⟩ := List.getElem?_zipWith_eq_some.1 hsize
  have hj := (List.getElem?_eq_some_iff.1 hy).1
  cases n with
  | zero => exact iff_of_true (ends_zero (by omega) (by omega)) (Nat.zero_le _)
  | succ n =>
    rw [ends_succ hx hy, h.before (by omega) hbefore, ← hvalue]
    by_cases hxy : x = y
    · rw [if_pos hxy, Nat.add_le_add_iff_right]
      exact and_iff_right hxy
    · rw [if_neg hxy]
      exact iff_of_false (fun h => hxy h.1) (Nat.not_succ_le_zero n)

/-- **The whole scan.** -/
theorem leads_scan {a b : List α} (rest : List α) {e : Nat} {row : List Nat} {best : Block}
    (hrest : a.drop e = rest) (hrow : IsRow a b e row) (h : Leads a b e 0 best) :
    Leads a b (e + rest.length) 0 (scan b e row rest best) := by
  induction rest generalizing e row best with
  | nil => exact h
  | cons x rest ih =>
    obtain ⟨hx, hdrop⟩ := getElem?_of_drop hrest
    have hnext := isRow_nextRow hrow hx
    have hbetter := leads_better (nextRow b x row) h fun t size hsize n => by
      rw [Nat.zero_add]
      exact hnext.longest t size hsize n
    rw [Nat.zero_add, hnext.length] at hbetter
    have hscan := ih hdrop hnext hbetter.next
    rwa [show e + (x :: rest).length = e + 1 + rest.length by rw [List.length_cons]; omega]

/-- **The scan finds the first longest block.** -/
theorem isFirstLongest_longestBlock (a b : List α) : IsFirstLongest a b (longestBlock a b) := by
  have h := leads_scan a (List.drop_zero) (isRow_zero a b) (leads_start a b)
  rw [Nat.zero_add] at h
  exact ⟨h.common, fun other hother => h.ahead other hother (.inr (.inl hother.inFirst))⟩

end FilmCatalog.Matching
