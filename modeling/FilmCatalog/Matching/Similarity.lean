/-
  FilmCatalog.Matching.Similarity
  ───────────────────────────────
  **HOW ALIKE TWO TEXTS ARE.**

  The longest block that two texts have in common is taken, the earliest one
  if there are several; then the parts to its left and the parts to its
  right are compared in the same way.  With `M` characters matched in texts
  of `T` characters altogether the ratio is `2 M / T`, rounded to binary64.

      longestBlock    the longest common block of two sequences
      longestMatch    the same within a window of each
      countMatches    the matched elements of the windows still to compare
      ratio           the ratio of two texts

  A block in a window splits it into smaller ones (`cost_parts_lt`), so the
  comparison ends.
-/
import FilmCatalog.Number.Binary64

namespace FilmCatalog.Matching

/-! ## §1. The longest common block. -/

/-- A block of `size` elements that starts at `i` in one sequence and at `j`
in the other. -/
structure Block where
  i : Nat
  j : Nat
  size : Nat
  deriving DecidableEq, Repr

variable {α : Type} [DecidableEq α]

/-- The lengths of the common blocks that end at the element `x` of the first
sequence and at each element of the second, from the lengths for the element
before `x`. -/
def nextRow (b : List α) (x : α) (row : List Nat) : List Nat :=
  List.zipWith (fun y length => if x = y then length + 1 else 0) b (0 :: row)

/-- The best block so far, after the blocks of a row; the row belongs to the
element `i` and starts at the element `j`. -/
def better (i : Nat) : Nat → List Nat → Block → Block
  | _, [], best => best
  | j, length :: rest, best =>
      better i (j + 1) rest
        (if best.size < length then ⟨i + 1 - length, j + 1 - length, length⟩ else best)

/-- Walks the first sequence from its element `i` on. -/
def scan (b : List α) : Nat → List Nat → List α → Block → Block
  | _, _, [], best => best
  | i, row, x :: rest, best =>
      scan b (i + 1) (nextRow b x row) rest (better i 0 (nextRow b x row) best)

/-- The longest common block of two sequences: of several the one that
starts first in the first sequence, then in the second. -/
def longestBlock (a b : List α) : Block := scan b 0 (b.map fun _ => 0) a ⟨0, 0, 0⟩

theorem i_better {i n : Nat} (hi : i < n) (row : List Nat) (j : Nat) {best : Block}
    (h : best.size = 0 ∨ best.i < n) :
    (better i j row best).size = 0 ∨ (better i j row best).i < n := by
  induction row generalizing j best with
  | nil => exact h
  | cons length rest ih =>
    refine ih (j + 1) ?_
    split
    · exact .inr (by simp only; omega)
    · exact h

theorem i_scan (b : List α) {n : Nat} (rest : List α) (i : Nat) (row : List Nat) {best : Block}
    (hn : i + rest.length ≤ n) (h : best.size = 0 ∨ best.i < n) :
    (scan b i row rest best).size = 0 ∨ (scan b i row rest best).i < n := by
  induction rest generalizing i row best with
  | nil => exact h
  | cons x rest ih =>
    simp only [List.length_cons] at hn
    exact ih (i + 1) _ (by omega) (i_better (by omega) _ 0 h)

/-- A block that is not empty starts inside the first sequence. -/
theorem i_longestBlock_lt {a b : List α} (h : (longestBlock a b).size ≠ 0) :
    (longestBlock a b).i < a.length :=
  (i_scan b a 0 (b.map fun _ => 0) (Nat.le_of_eq (Nat.zero_add _)) (.inl rfl)).resolve_left h

/-! ## §2. Windows. -/

/-- A part of each of two sequences, by positions. -/
structure Window where
  aStart : Nat
  aStop : Nat
  bStart : Nat
  bStop : Nat
  deriving DecidableEq, Repr

/-- The elements from one position up to another. -/
def slice (items : List α) (start stop : Nat) : List α := (items.take stop).drop start

/-- The longest common block within a window. -/
def longestMatch (a b : List α) (w : Window) : Block :=
  let block := longestBlock (slice a w.aStart w.aStop) (slice b w.bStart w.bStop)
  ⟨w.aStart + block.i, w.bStart + block.j, block.size⟩

/-- What is left of a window beside a block, as far as both sequences have
something left; the right part first. -/
def parts (w : Window) (block : Block) : List Window :=
  (if block.i + block.size < w.aStop ∧ block.j + block.size < w.bStop then
    [⟨block.i + block.size, w.aStop, block.j + block.size, w.bStop⟩] else [])
  ++ (if w.aStart < block.i ∧ w.bStart < block.j then
    [⟨w.aStart, block.i, w.bStart, block.j⟩] else [])

/-- An upper bound of the steps that a window can take. -/
def Window.cost (w : Window) : Nat := 2 * (w.aStop - w.aStart) + 1

/-- An upper bound of the steps that some windows can take. -/
def totalCost : List Window → Nat
  | [] => 0
  | w :: rest => w.cost + totalCost rest

theorem totalCost_append (v w : List Window) : totalCost (v ++ w) = totalCost v + totalCost w := by
  induction v with
  | nil => simp [totalCost]
  | cons first rest ih => simp [totalCost, ih, Nat.add_assoc]

/-- A block splits a window into parts that cost less. -/
theorem cost_parts_lt {w : Window} {block : Block} (hsize : block.size ≠ 0)
    (hstart : w.aStart ≤ block.i) (hstop : block.i < w.aStop) :
    totalCost (parts w block) < w.cost := by
  rw [parts, totalCost_append]
  split <;> split <;> simp [totalCost, Window.cost] <;> omega

/-- A block that is not empty starts inside its window. -/
theorem i_longestMatch {a b : List α} {w : Window} (h : (longestMatch a b w).size ≠ 0) :
    w.aStart ≤ (longestMatch a b w).i ∧ (longestMatch a b w).i < w.aStop := by
  have hlt := i_longestBlock_lt (show (longestBlock _ _).size ≠ 0 from h)
  simp only [slice, List.length_drop, List.length_take] at hlt
  simp only [longestMatch, slice]
  omega

/-! ## §3. Counting. -/

/-- The number of matched elements in the windows still to be compared. -/
def countMatches (a b : List α) : List Window → Nat
  | [] => 0
  | w :: pending =>
      if (longestMatch a b w).size = 0 then countMatches a b pending
      else (longestMatch a b w).size
        + countMatches a b (parts w (longestMatch a b w) ++ pending)
termination_by pending => totalCost pending
decreasing_by
  · simp [totalCost, Window.cost]
  · rename_i h
    have hcost := cost_parts_lt h (i_longestMatch h).1 (i_longestMatch h).2
    rw [totalCost_append]
    simpa [totalCost] using hcost

/-- The number of elements that match in two sequences. -/
def matchCount (a b : List α) : Nat := countMatches a b [⟨0, a.length, 0, b.length⟩]

/-- How alike two texts are, between nought and one; two empty texts are
alike. -/
def ratio (a b : String) : Binary64 :=
  let a := a.toList
  let b := b.toList
  let total := a.length + b.length
  if total = 0 then Binary64.ofNat 1 else .roundQuotient (2 * matchCount a b) total

end FilmCatalog.Matching
