/-
  FilmCatalog.Proofs.Matching.Rows
  ────────────────────────────────
  **THE SEARCH IN A WINDOW.**

  Within a window the block that is found is the longest one, of several the
  one that starts first in the first sequence, then in the second
  (`IsFirstLongestIn`).

  The search can do with two rows of cells that it fills in turn.  It counts
  positions in the whole sequences, the element `j` of the second one has the
  cell `j + 1 - bStart`, and no row is ever cleared.  In `searchRows?` each
  look at an element or a cell is checked, and so is each subtraction; the
  search ends with nothing where one of them is not possible:

    • `tracks_cell?` — one cell: what is read was written for this row or for
      the one before, never for an older one,
    • `tracks_row?` — a whole row, after which the rows change places,
    • `searchRows?_eq` — no check fails, and the block is the same.
-/
import FilmCatalog.Proofs.Matching.Counting

namespace FilmCatalog.Matching

variable {α : Type}

/-! ## §1. Blocks in a window. -/

/-- The window lies within both sequences. -/
structure Window.Within (w : Window) (a b : List α) : Prop where
  aOrder : w.aStart ≤ w.aStop
  aLength : w.aStop ≤ a.length
  bOrder : w.bStart ≤ w.bStop
  bLength : w.bStop ≤ b.length

/-- The block lies within the window. -/
structure Window.Holds (w : Window) (block : Block) : Prop where
  aStart : w.aStart ≤ block.i
  aStop : block.i + block.size ≤ w.aStop
  bStart : w.bStart ≤ block.j
  bStop : block.j + block.size ≤ w.bStop

/-- **The first longest block in a window** that two sequences have in common. -/
structure IsFirstLongestIn (a b : List α) (w : Window) (block : Block) : Prop where
  common : Common a b block
  inside : w.Holds block
  longest : ∀ other, Common a b other → w.Holds other → other.size ≤ block.size
  first : ∀ other, Common a b other → w.Holds other → other.size = block.size →
    block.i ≤ other.i ∧ (other.i = block.i → block.j ≤ other.j)

/-- A block of the parts that a window shows, by its place in the whole. -/
def Window.moved (w : Window) (block : Block) : Block :=
  ⟨w.aStart + block.i, w.bStart + block.j, block.size⟩

theorem slice_slice (items : List α) {start stop k n : Nat} (h : start + k + n ≤ stop) :
    slice (slice items start stop) k (k + n) = slice items (start + k) (start + k + n) := by
  show ((slice items start stop).take (k + n)).drop k = _
  rw [take_slice items (by omega), drop_slice, Nat.add_assoc start k n]

/-- The blocks of the parts are the blocks in the window. -/
theorem common_moved_iff {a b : List α} {w : Window} (h : w.Within a b) (block : Block) :
    Common (slice a w.aStart w.aStop) (slice b w.bStart w.bStop) block ↔
      Common a b (w.moved block) ∧ w.Holds (w.moved block) := by
  obtain ⟨haOrder, haLength, hbOrder, hbLength⟩ := h
  have ha : (slice a w.aStart w.aStop).length = w.aStop - w.aStart := by
    rw [length_slice, Nat.min_eq_left haLength]
  have hb : (slice b w.bStart w.bStop).length = w.bStop - w.bStart := by
    rw [length_slice, Nat.min_eq_left hbLength]
  constructor
  · rintro ⟨hi, hj, hsame⟩
    rw [ha] at hi
    rw [hb] at hj
    rw [slice_slice a (by omega), slice_slice b (by omega)] at hsame
    refine ⟨⟨?_, ?_, hsame⟩, ⟨?_, ?_, ?_, ?_⟩⟩ <;> simp only [Window.moved] <;> omega
  · rintro ⟨⟨_, _, hsame⟩, ⟨_, hi, _, hj⟩⟩
    simp only [Window.moved] at hi hj
    refine ⟨by omega, by omega, ?_⟩
    rw [slice_slice a (by omega), slice_slice b (by omega)]
    exact hsame

/-- A block in a window is a block of the parts, by its place in the whole. -/
theorem Window.Holds.exists_moved {w : Window} {block : Block} (h : w.Holds block) :
    ∃ inner, block = w.moved inner := by
  obtain ⟨i, j, size⟩ := block
  obtain ⟨hi, _, hj, _⟩ := h
  refine ⟨⟨i - w.aStart, j - w.bStart, size⟩, ?_⟩
  simp only at hi hj
  rw [moved, Nat.add_sub_cancel' hi, Nat.add_sub_cancel' hj]

theorem isFirstLongestIn_moved {a b : List α} {w : Window} (h : w.Within a b) {block : Block}
    (hblock : IsFirstLongest (slice a w.aStart w.aStop) (slice b w.bStart w.bStop) block) :
    IsFirstLongestIn a b w (w.moved block) := by
  obtain ⟨hcommon, hahead⟩ := hblock
  obtain ⟨hfound, hinside⟩ := (common_moved_iff h block).1 hcommon
  have hlead : ∀ inner, Common a b (w.moved inner) → w.Holds (w.moved inner) →
      Ahead block inner :=
    fun inner hinner hholds => hahead inner ((common_moved_iff h inner).2 ⟨hinner, hholds⟩)
  refine ⟨hfound, hinside, fun other hother hholds => ?_, fun other hother hholds hsize => ?_⟩
  · obtain ⟨inner, rfl⟩ := hholds.exists_moved
    have := hlead inner hother hholds
    unfold Ahead at this
    simp only [Window.moved]
    omega
  · obtain ⟨inner, rfl⟩ := hholds.exists_moved
    have := hlead inner hother hholds
    unfold Ahead at this
    simp only [Window.moved] at hsize ⊢
    omega

/-! ## §2. Two rows of cells. -/

/-- The difference, if it does not go below nought. -/
def minus? (m n : Nat) : Option Nat := if n ≤ m then some (m - n) else none

/-- The cells with a new value in one of them, if there is such a cell. -/
def write? (cells : List Nat) (slot value : Nat) : Option (List Nat) :=
  if slot < cells.length then some (cells.set slot value) else none

/-- What the search keeps. -/
structure Rows where
  /-- The cells of the element before. -/
  previous : List Nat
  /-- The cells of this element; those not written yet are older. -/
  current : List Nat
  best : Block

variable [DecidableEq α]

/-- The length of the block that ends at two elements. -/
def lengthAt? (a b : List α) (i j slot : Nat) (previous : List Nat) : Option Nat := do
  let x ← a[i]?
  let y ← b[j]?
  if x = y then
    let before ← minus? slot 1
    let length ← previous[before]?
    return length + 1
  else
    return 0

/-- The better one of a block and the one that ends at two elements. -/
def better? (i j length : Nat) (best : Block) : Option Block :=
  if best.size < length then do
    let start ← minus? (i + 1) length
    let other ← minus? (j + 1) length
    return ⟨start, other, length⟩
  else
    some best

/-- Fills the cell of two elements. -/
def cell? (a b : List α) (w : Window) (i : Nat) (rows : Rows) (j : Nat) : Option Rows := do
  let slot ← minus? (j + 1) w.bStart
  let length ← lengthAt? a b i j slot rows.previous
  let current ← write? rows.current slot length
  let written ← current[slot]?
  let best ← better? i j written rows.best
  return ⟨rows.previous, current, best⟩

/-- Fills the row of an element; then the rows change places. -/
def row? (a b : List α) (w : Window) (rows : Rows) (i : Nat) : Option Rows := do
  let filled ← (List.range' w.bStart (w.bStop - w.bStart)).foldlM (cell? a b w i) rows
  return ⟨filled.current, filled.previous, filled.best⟩

/-- **The search with two rows**, with all checks. -/
def searchRows? (a b : List α) (w : Window) : Option Block := do
  let width ← minus? w.bStop w.bStart
  let blank := List.replicate (width + 1) 0
  let rows ← (List.range' w.aStart (w.aStop - w.aStart)).foldlM (row? a b w)
    ⟨blank, blank, ⟨w.aStart, w.bStart, 0⟩⟩
  return rows.best

/-! ## §3. What the cells hold. -/

/-- The rows after some cells: those of the element before are all there, the
cells `done` are written, and whatever stands behind them is not looked at. -/
structure Tracks (w : Window) (row done : List Nat) (best : Block) (rows : Rows) : Prop where
  previous : rows.previous = 0 :: row
  written : 0 :: done <+: rows.current
  length : rows.current.length = row.length + 1
  best : rows.best = w.moved best

omit [DecidableEq α] in
theorem minus?_of_le {m n : Nat} (h : n ≤ m) : minus? m n = some (m - n) := if_pos h

/-- A cell behind those that are written. -/
theorem write?_behind {done cells : List Nat} (hdone : done <+: cells)
    (hlt : done.length < cells.length) (value : Nat) :
    ∃ fresh, write? cells done.length value = some fresh ∧ done ++ [value] <+: fresh ∧
      fresh.length = cells.length ∧ fresh[done.length]? = some value := by
  refine ⟨cells.set done.length value, if_pos hlt, ?_, List.length_set,
    List.getElem?_set_self hlt⟩
  obtain ⟨stale, rfl⟩ := hdone
  cases stale with
  | nil => simp at hlt
  | cons old stale =>
    refine ⟨stale, ?_⟩
    rw [List.set_append_right _ _ (Nat.le_refl _), Nat.sub_self, List.set_cons_zero,
      List.append_assoc, List.singleton_append]

theorem better?_moved (w : Window) {e f length : Nat} (he : length ≤ e + 1) (hf : length ≤ f + 1)
    (best : Block) :
    better? (w.aStart + e) (w.bStart + f) length (w.moved best)
      = some (w.moved (if best.size < length then ⟨e + 1 - length, f + 1 - length, length⟩
          else best)) := by
  unfold better?
  by_cases hlt : best.size < length
  · have hsize : (w.moved best).size < length := hlt
    rw [if_pos hsize, if_pos hlt, minus?_of_le (by omega), minus?_of_le (by omega)]
    show some (Block.mk _ _ _) = some (Block.mk _ _ _)
    rw [Nat.add_assoc, Nat.add_sub_assoc he, Nat.add_assoc, Nat.add_sub_assoc hf]
  · have hsize : ¬ (w.moved best).size < length := hlt
    rw [if_neg hsize, if_neg hlt]

theorem lengthAt?_eq {a b : List α} {i j slot before : Nat} {x y : α} {previous : List Nat}
    (hx : a[i]? = some x) (hy : b[j]? = some y) (hbefore : previous[slot]? = some before) :
    lengthAt? a b i j (slot + 1) previous = some (if x = y then before + 1 else 0) := by
  unfold lengthAt?
  rw [hx, hy]
  show (if x = y then _ else _) = _
  by_cases hxy : x = y
  · rw [if_pos hxy, if_pos hxy, minus?_of_le (by omega), Nat.add_sub_cancel]
    show (previous[slot]?).bind _ = _
    rw [hbefore]
    rfl
  · rw [if_neg hxy, if_neg hxy]
    rfl

/-- **One cell.** -/
theorem tracks_cell? {a b : List α} {w : Window} {e before : Nat} {x y : α} {row done : List Nat}
    {best : Block} {rows : Rows} (h : Tracks w row done best rows)
    (hx : a[w.aStart + e]? = some x) (hy : b[w.bStart + done.length]? = some y)
    (hbefore : (0 :: row)[done.length]? = some before) {length : Nat}
    (hlength : (if x = y then before + 1 else 0) = length) (hlt : done.length < row.length)
    (he : length ≤ e + 1) (hf : length ≤ done.length + 1) :
    ∃ next, cell? a b w (w.aStart + e) rows (w.bStart + done.length) = some next ∧
      Tracks w row (done ++ [length])
        (if best.size < length then ⟨e + 1 - length, done.length + 1 - length, length⟩ else best)
        next := by
  obtain ⟨hprevious, hwritten, hcells, hbest⟩ := h
  obtain ⟨fresh, hfresh, hnow, hsame, hread⟩ :=
    write?_behind hwritten (by rw [hcells, List.length_cons]; omega) length
  refine ⟨⟨rows.previous, fresh, _⟩, ?_, hprevious, hnow, hsame.trans hcells, rfl⟩
  rw [List.length_cons] at hfresh hread
  have hslot : minus? (w.bStart + done.length + 1) w.bStart = some (done.length + 1) := by
    rw [minus?_of_le (by omega)]
    congr 1
    omega
  rw [cell?, hslot]
  show (lengthAt? _ _ _ _ (done.length + 1) _).bind _ = _
  rw [hprevious, lengthAt?_eq hx hy hbefore, hlength]
  show (write? _ _ _).bind _ = _
  rw [hfresh]
  show (fresh[done.length + 1]?).bind _ = _
  rw [hread]
  show (better? _ _ _ _).bind _ = _
  rw [hbest, better?_moved w he hf]
  rfl

/-! ## §4. Whole rows. -/

omit [DecidableEq α] in
/-- What stands in the part that a window shows stands in the whole. -/
theorem getElem?_of_slice {items : List α} {start stop t : Nat} {x : α}
    (h : (slice items start stop)[t]? = some x) : items[start + t]? = some x := by
  unfold slice at h
  rw [List.getElem?_drop, List.getElem?_take] at h
  split at h
  · exact h
  · cases h

omit [DecidableEq α] in
/-- No block is longer than what lies before its end. -/
theorem IsRow.size_le {a b : List α} {e f size : Nat} {row : List Nat} (h : IsRow a b e row)
    (hsize : row[f]? = some size) : size ≤ e ∧ size ≤ f + 1 := by
  obtain ⟨he, hf, _⟩ := (h.longest f size hsize size).2 (Nat.le_refl size)
  exact ⟨he, hf⟩

section Window

variable {a b : List α} {w : Window}

/-- **The cells of a row**, from some cell on. -/
theorem tracks_cells? {e : Nat} {x : α} {row : List Nat} (hx : a[w.aStart + e]? = some x)
    (hrow : IsRow (slice a w.aStart w.aStop) (slice b w.bStart w.bStop) (e + 1)
      (nextRow (slice b w.bStart w.bStop) x row))
    (hlength : row.length = (nextRow (slice b w.bStart w.bStop) x row).length)
    (todo : List Nat) {done : List Nat} {best : Block} {rows : Rows}
    (hnext : nextRow (slice b w.bStart w.bStop) x row = done ++ todo)
    (h : Tracks w row done best rows) :
    ∃ filled, (List.range' (w.bStart + done.length) todo.length).foldlM
        (cell? a b w (w.aStart + e)) rows = some filled ∧
      Tracks w row (done ++ todo) (better e done.length todo best) filled := by
  induction todo generalizing done best rows with
  | nil =>
    rw [List.append_nil]
    exact ⟨rows, rfl, h⟩
  | cons length rest ih =>
    have hcell : (nextRow (slice b w.bStart w.bStop) x row)[done.length]? = some length := by
      rw [hnext, List.getElem?_append_right (Nat.le_refl _), Nat.sub_self]
      rfl
    obtain ⟨he, hf⟩ := hrow.size_le hcell
    obtain ⟨y, before, hy, hbefore, hvalue⟩ := List.getElem?_zipWith_eq_some.1 hcell
    have hlt : done.length < row.length := by
      rw [hlength]
      exact (List.getElem?_eq_some_iff.1 hcell).1
    obtain ⟨next, hstep, htracks⟩ :=
      tracks_cell? h hx (getElem?_of_slice hy) hbefore hvalue hlt he hf
    obtain ⟨filled, hrun, hfilled⟩ :=
      ih (by rw [hnext, List.append_assoc, List.singleton_append]) htracks
    rw [List.length_append, List.length_singleton] at hrun hfilled
    refine ⟨filled, ?_, ?_⟩
    · rw [List.length_cons, List.range'_succ, List.foldlM_cons, hstep]
      exact hrun
    · rw [List.append_assoc, List.singleton_append] at hfilled
      exact hfilled

/-- **One row**: afterwards it is the row before, and the one that was before it
holds old cells only. -/
theorem tracks_row? (hw : w.Within a b) {e : Nat} {x : α} {row : List Nat} {best : Block}
    {rows : Rows} (hx : (slice a w.aStart w.aStop)[e]? = some x)
    (hrow : IsRow (slice a w.aStart w.aStop) (slice b w.bStart w.bStop) e row)
    (h : Tracks w row [] best rows) :
    ∃ next, row? a b w rows (w.aStart + e) = some next ∧
      Tracks w (nextRow (slice b w.bStart w.bStop) x row) []
        (better e 0 (nextRow (slice b w.bStart w.bStop) x row) best) next := by
  have hnext := isRow_nextRow hrow hx
  have hlength := hrow.length.trans hnext.length.symm
  obtain ⟨filled, hrun, hprevious, hwritten, hcells, hbest⟩ :=
    tracks_cells? (getElem?_of_slice hx) hnext hlength _ (List.nil_append _).symm h
  have hwidth : (nextRow (slice b w.bStart w.bStop) x row).length = w.bStop - w.bStart := by
    rw [hnext.length, length_slice, Nat.min_eq_left hw.bLength]
  have hfull : filled.current = 0 :: nextRow (slice b w.bStart w.bStop) x row := by
    refine (hwritten.eq_of_length ?_).symm
    rw [hcells, hlength]
    rfl
  refine ⟨⟨filled.current, filled.previous, filled.best⟩, ?_, hfull, ?_, ?_, hbest⟩
  · rw [hwidth] at hrun
    rw [row?]
    exact congrArg (Option.bind · _) hrun
  · rw [hprevious]
    exact List.prefix_append [0] row
  · rw [hprevious, List.length_cons, hlength]

/-- **All rows.** -/
theorem best_rows? (hw : w.Within a b) (rest : List α) {e : Nat} {row : List Nat} {best : Block}
    {rows : Rows} (hrest : (slice a w.aStart w.aStop).drop e = rest)
    (hrow : IsRow (slice a w.aStart w.aStop) (slice b w.bStart w.bStop) e row)
    (h : Tracks w row [] best rows) :
    ∃ last, (List.range' (w.aStart + e) rest.length).foldlM (row? a b w) rows = some last ∧
      last.best = w.moved (scan (slice b w.bStart w.bStop) e row rest best) := by
  induction rest generalizing e row best rows with
  | nil => exact ⟨rows, rfl, h.best⟩
  | cons x rest ih =>
    obtain ⟨hx, hdrop⟩ := getElem?_of_drop hrest
    obtain ⟨next, hstep, htracks⟩ := tracks_row? hw hx hrow h
    obtain ⟨last, hrun, hlast⟩ := ih hdrop (isRow_nextRow hrow hx) htracks
    refine ⟨last, ?_, hlast⟩
    rw [List.length_cons, List.range'_succ, List.foldlM_cons, hstep]
    exact hrun

/-- **No check fails**, and the search with two rows finds the same block. -/
theorem searchRows?_eq (hw : w.Within a b) : searchRows? a b w = some (longestMatch a b w) := by
  have hwidth : (slice b w.bStart w.bStop).length = w.bStop - w.bStart := by
    rw [length_slice, Nat.min_eq_left hw.bLength]
  have hheight : (slice a w.aStart w.aStop).length = w.aStop - w.aStart := by
    rw [length_slice, Nat.min_eq_left hw.aLength]
  -- All cells are nought at first: those of the row before the first one, and those not written.
  have hblank : List.replicate (w.bStop - w.bStart + 1) 0
      = 0 :: (slice b w.bStart w.bStop).map fun _ => 0 := by
    rw [List.map_const', hwidth, List.replicate_succ]
  have hstart : Tracks w ((slice b w.bStart w.bStop).map fun _ => 0) [] ⟨0, 0, 0⟩
      ⟨0 :: (slice b w.bStart w.bStop).map fun _ => 0,
        0 :: (slice b w.bStart w.bStop).map fun _ => 0, ⟨w.aStart, w.bStart, 0⟩⟩ :=
    ⟨rfl, List.prefix_append [0] _, rfl, rfl⟩
  obtain ⟨last, hrun, hlast⟩ := best_rows? hw _ (List.drop_zero) (isRow_zero _ _) hstart
  rw [hheight] at hrun
  unfold searchRows?
  rw [minus?_of_le hw.bOrder]
  show Option.bind (List.foldlM _ (Rows.mk (List.replicate (w.bStop - w.bStart + 1) 0)
    (List.replicate (w.bStop - w.bStart + 1) 0) _) _) _ = _
  rw [hblank]
  have hbest : last.best = longestMatch a b w := hlast
  rw [← hbest]
  exact congrArg (Option.bind · _) hrun

end Window

/-- **The search in a window finds the first longest block**, and the two rows
serve it without a look outside of them or outside of the sequences, and
without a difference below nought. -/
theorem longestMatch_in_window (a b : List α) (w : Window) (h : w.Within a b) :
    IsFirstLongestIn a b w (longestMatch a b w) ∧
      searchRows? a b w = some (longestMatch a b w) :=
  ⟨isFirstLongestIn_moved h (isFirstLongest_longestBlock _ _), searchRows?_eq h⟩

/-- Of two places in the second text the first one is taken. -/
theorem longestMatch_in_window_repeated :
    Window.Within ⟨1, 5, 0, 5⟩ "abxab".toList "abyab".toList ∧
      IsFirstLongestIn "abxab".toList "abyab".toList ⟨1, 5, 0, 5⟩ ⟨3, 0, 2⟩ ∧
      searchRows? "abxab".toList "abyab".toList ⟨1, 5, 0, 5⟩ = some ⟨3, 0, 2⟩ := by
  have hwithin : Window.Within ⟨1, 5, 0, 5⟩ "abxab".toList "abyab".toList :=
    ⟨by decide, by decide, by decide, by decide⟩
  have hfound : longestMatch "abxab".toList "abyab".toList ⟨1, 5, 0, 5⟩ = ⟨3, 0, 2⟩ := by decide
  have h := longestMatch_in_window "abxab".toList "abyab".toList ⟨1, 5, 0, 5⟩ hwithin
  rw [hfound] at h
  exact ⟨hwithin, h⟩

end FilmCatalog.Matching
