/-
  FilmCatalog.Proofs.Json.Length
  ──────────────────────────────
  **A TEXT IS NO SHORTER THAN ITS VALUE IS LARGE.**

  Whatever a text spells, each value in it takes a character at least: a scan
  pays for the values it gives with the characters it takes (`Pays`), and a
  repeated key only makes the value smaller than the text.  So the length of a
  text bounds the number of values in it (`count_le_of_read?`), and a text that
  has room in memory is read as a value that has (`addressable_of_read?`).
-/
import Mathlib.Data.List.TakeDrop
import FilmCatalog.Json.Reader
import FilmCatalog.Proofs.Json.Size

namespace FilmCatalog.Json

/-! ## §1. Scalars take characters. -/

theorem length_skipBlanks_le (text : List Char) : (skipBlanks text).length ≤ text.length :=
  (List.dropWhile_suffix isBlank).length_le

/-- A string takes its closing quote at least. -/
theorem length_scanString {text rest : List Char} {pieces : List Piece}
    (h : scanString text = some (pieces, rest)) : rest.length < text.length := by
  fun_induction scanString text generalizing pieces rest with
  | case1 => cases h
  | case2 others =>
    cases h
    exact Nat.lt_succ_self _
  | case3 a b c d others ih =>
    simp only [Option.bind_eq_bind, Option.bind_eq_some_iff] at h
    obtain ⟨code, _, ⟨more, left⟩, hmore, hdone⟩ := h
    cases hdone
    have hless := ih hmore
    simp only [List.length_cons]
    omega
  | case4 c others _ ih =>
    simp only [Option.bind_eq_bind, Option.bind_eq_some_iff] at h
    obtain ⟨letter, _, ⟨more, left⟩, hmore, hdone⟩ := h
    cases hdone
    have hless := ih hmore
    simp only [List.length_cons]
    omega
  | case5 => cases h
  | case6 c others _ _ _ _ ih =>
    simp only [Option.bind_eq_bind, Option.bind_eq_some_iff] at h
    obtain ⟨⟨more, left⟩, hmore, hdone⟩ := h
    cases hdone
    have hless := ih hmore
    simp only [List.length_cons]
    omega

/-- Every digit takes a character. -/
theorem length_scanDigits (text : List Char) :
    (scanDigits text).1.length + (scanDigits text).2.length = text.length := by
  unfold scanDigits
  rw [List.span_eq_takeWhile_dropWhile]
  simp only [List.length_map]
  rw [← List.length_append, List.takeWhile_append_dropWhile]

/-- A whole number takes a digit at least. -/
theorem length_scanWhole {text rest : List Char} {digits : List Nat}
    (h : scanWhole text = some (digits, rest)) : rest.length < text.length := by
  unfold scanWhole at h
  split at h
  · cases h
    exact Nat.lt_succ_self _
  · have hlength := length_scanDigits text
    simp only at h
    split at h
    · cases h
    · rename_i hdigits
      cases h
      have hpos := List.length_pos_iff.2 (mt List.isEmpty_iff.2 hdigits)
      omega

theorem length_scanFraction {text rest : List Char} {digits : Option (List Nat)}
    (h : scanFraction text = some (digits, rest)) : rest.length ≤ text.length := by
  unfold scanFraction at h
  split at h
  · rename_i others
    have hlength := length_scanDigits others
    simp only at h
    split at h
    · cases h
    · cases h
      simp only [List.length_cons]
      omega
  · cases h
    exact Nat.le_refl _

theorem length_scanExponentDigits {negative : Bool} {text rest : List Char} {exponent : Option Int}
    (h : scanExponentDigits negative text = some (exponent, rest)) : rest.length ≤ text.length := by
  have hlength := length_scanDigits text
  unfold scanExponentDigits at h
  simp only at h
  split at h
  · cases h
  · cases h
    omega

theorem length_scanExponent {text rest : List Char} {exponent : Option Int}
    (h : scanExponent text = some (exponent, rest)) : rest.length ≤ text.length := by
  unfold scanExponent at h
  split at h
  · split at h
    · -- The letter of the exponent, its sign and its digits.
      simp only [List.length_cons]
      split at h
      · have hless := length_scanExponentDigits h
        simp only [List.length_cons]
        omega
      · have hless := length_scanExponentDigits h
        simp only [List.length_cons]
        omega
      · have hless := length_scanExponentDigits h
        omega
    · cases h
      exact Nat.le_refl _
  · cases h
    exact Nat.le_refl _

theorem length_scanMagnitude {negative : Bool} {text rest : List Char} {literal : Literal}
    (h : scanMagnitude negative text = some (literal, rest)) : rest.length < text.length := by
  unfold scanMagnitude at h
  simp only [Option.bind_eq_bind, Option.bind_eq_some_iff] at h
  obtain ⟨⟨whole, first⟩, hwhole, ⟨fraction, second⟩, hfraction, ⟨exponent, third⟩, hexponent, hdone⟩ :=
    h
  cases hdone
  exact Nat.lt_of_le_of_lt (Nat.le_trans (length_scanExponent hexponent)
    (length_scanFraction hfraction)) (length_scanWhole hwhole)

/-- A number takes a character at least. -/
theorem length_scanNumber {text rest : List Char} {literal : Literal}
    (h : scanNumber text = some (literal, rest)) : rest.length < text.length := by
  unfold scanNumber at h
  split at h
  · exact Nat.lt_succ_of_lt (length_scanMagnitude h)
  · exact length_scanMagnitude h

/-! ## §2. Containers take those of their elements. -/

section Elements

variable {α : Type} {P : α → Nat → Prop} {element : List Char → Option (α × List Char)}
  {close : Char} {bound : Nat}

/-- What a scan gives is worth no more than the characters that it takes. -/
def Pays (P : α → Nat → Prop) (scan : List Char → Option (α × List Char)) : Prop :=
  ∀ text x rest, scan text = some (x, rest) → ∃ n, P x n ∧ n + rest.length ≤ text.length

/-- The elements are worth so much together. -/
inductive Together (P : α → Nat → Prop) : List α → Nat → Prop where
  | nil : Together P [] 0
  | cons {x : α} {xs : List α} {n more : Nat} (first : P x n) (others : Together P xs more) :
      Together P (x :: xs) (n + more)

/-- How a scan of elements goes on after the first one. -/
theorem scanElements_cases {text rest : List Char} {xs : List α}
    (h : scanElements element close (bound + 1) text = some (xs, rest)) :
    ∃ x more, element (skipBlanks text) = some (x, more) ∧
      ((skipBlanks more = close :: rest ∧ xs = [x]) ∨
      ∃ next others, skipBlanks more = ',' :: next ∧
        scanElements element close bound next = some (others, rest) ∧ xs = x :: others) := by
  rw [scanElements] at h
  simp only [Option.bind_eq_bind, Option.bind_eq_some_iff] at h
  obtain ⟨⟨x, more⟩, helement, hrest⟩ := h
  refine ⟨x, more, helement, ?_⟩
  split at hrest
  · rename_i next hmore
    obtain ⟨⟨others, left⟩, hothers, hdone⟩ := Option.bind_eq_some_iff.1 hrest
    cases hdone
    exact .inr ⟨next, others, hmore, hothers, rfl⟩
  · rename_i c left _ hmore
    split at hrest
    · rename_i hc
      cases hrest
      exact .inl ⟨hc ▸ hmore, rfl⟩
    · cases hrest
  · cases hrest

/-- Elements pay for one another if each pays for itself. -/
theorem Pays.elements (h : Pays P element) :
    Pays (Together P) (scanElements element close bound) := by
  intro text xs rest hscan
  induction bound generalizing text xs with
  | zero => cases hscan
  | succ bound ih =>
    obtain ⟨x, more, hx, hrest⟩ := scanElements_cases hscan
    obtain ⟨n, hn, hlength⟩ := h _ _ _ hx
    have hblank := length_skipBlanks_le text
    have hmore := length_skipBlanks_le more
    rcases hrest with ⟨hclose, rfl⟩ | ⟨next, others, hcomma, hothers, rfl⟩
    · refine ⟨n + 0, .cons hn .nil, ?_⟩
      rw [hclose, List.length_cons] at hmore
      omega
    · obtain ⟨total, htotal, hnext⟩ := ih next others hothers
      refine ⟨n + total, .cons hn htotal, ?_⟩
      rw [hcomma, List.length_cons] at hmore
      omega

/-- So do the elements of a container. -/
theorem Pays.container (h : Pays P element) :
    Pays (Together P) (scanContainer element close bound) := by
  intro text xs rest hscan
  unfold scanContainer at hscan
  split at hscan
  · cases hscan
  · rename_i c others hskip
    split at hscan
    · cases hscan
      have hblank := length_skipBlanks_le text
      rw [hskip, List.length_cons] at hblank
      exact ⟨0, .nil, by omega⟩
    · exact h.elements text xs rest hscan

end Elements

/-! ## §3. Values. -/

/-- Whatever its value is, it is made of no more values than that. -/
def Tree.AtMost (tree : Tree) (n : Nat) : Prop :=
  ∀ depth v, tree.valueWithin? depth = some v → v.count ≤ n

theorem Tree.atMost_null : Tree.null.AtMost 1 := by
  intro depth v hv
  rw [valueWithin?] at hv
  cases hv
  exact Nat.le_refl 1

theorem Tree.atMost_bool (value : Bool) : (Tree.bool value).AtMost 1 := by
  intro depth v hv
  rw [valueWithin?] at hv
  cases hv
  exact Nat.le_refl 1

theorem Tree.atMost_string (pieces : List Piece) : (Tree.string pieces).AtMost 1 := by
  intro depth v hv
  rw [valueWithin?] at hv
  obtain ⟨text, _, rfl⟩ := Option.map_eq_some_iff.1 hv
  exact Nat.le_refl 1

theorem Tree.atMost_number (literal : Literal) : (Tree.number literal).AtMost 1 := by
  intro depth v hv
  rw [valueWithin?] at hv
  obtain ⟨number, _, rfl⟩ := Option.map_eq_some_iff.1 hv
  exact Nat.le_refl 1

/-- The items of an array. -/
theorem countItems_of_mapM {depth : Nat} {trees : List Tree} {n : Nat}
    (h : Together Tree.AtMost trees n) {items : List Json}
    (hvalues : trees.mapM (Tree.valueWithin? depth) = some items) : countItems items ≤ n := by
  induction h generalizing items with
  | nil =>
    cases hvalues
    exact Nat.le_refl 0
  | cons htree _ ih =>
    rw [List.mapM_cons] at hvalues
    simp only [Option.bind_eq_bind, Option.bind_eq_some_iff] at hvalues
    obtain ⟨item, hitem, rest, hrest, hdone⟩ := hvalues
    cases hdone
    exact Nat.add_le_add (htree depth item hitem) (ih hrest)

/-- The fields of an object, in the order of the text. -/
theorem countFields_of_mapM {depth : Nat} {trees : List (List Piece × Tree)} {n : Nat}
    (h : Together (fun field n => Tree.AtMost field.2 n) trees n) {fields : Fields}
    (hvalues : (trees.mapM fun (field : List Piece × Tree) => do
      let key ← pieceText? field.1
      let value ← field.2.valueWithin? depth
      return (key, value)) = some fields) : countFields fields ≤ n := by
  induction h generalizing fields with
  | nil =>
    cases hvalues
    exact Nat.le_refl 0
  | cons hfield _ ih =>
    rw [List.mapM_cons] at hvalues
    simp only [Option.bind_eq_bind, Option.bind_eq_some_iff] at hvalues
    obtain ⟨_, ⟨key, _, value, hvalue, hpair⟩, rest, hrest, hdone⟩ := hvalues
    cases hpair
    cases hdone
    exact Nat.add_le_add (hfield depth value hvalue) (ih hrest)

/-- A field that is put into an object adds its value at most, for it may
replace another one. -/
theorem countFields_put (fields : Fields) (key : String) (value : Json) :
    countFields (fields.put key value) ≤ value.count + countFields fields := by
  unfold Fields.put
  induction fields with
  | nil => exact Nat.le_refl _
  | cons field rest ih =>
    rw [Entries.insertEntry]
    split
    · exact Nat.le_refl _
    · split
      · simp only [countFields]
        omega
      · simp only [countFields]
        omega

/-- Fields under one key replace each other. -/
theorem count_ofFields (fields : Fields) : (ofFields fields).count ≤ 1 + countFields fields := by
  have hput : ∀ all : Fields,
      countFields (fields.foldl (fun all field => Fields.put all field.1 field.2) all)
        ≤ countFields fields + countFields all := by
    induction fields with
    | nil => exact fun all => Nat.le_add_left _ _
    | cons field rest ih =>
      intro all
      have hrest := ih (Fields.put all field.1 field.2)
      have hfirst := countFields_put all field.1 field.2
      rw [List.foldl_cons, countFields]
      omega
  exact Nat.add_le_add_left (hput []) 1

/-- An array is made of itself and its items. -/
theorem Tree.atMost_array {trees : List Tree} {n : Nat} (h : Together Tree.AtMost trees n) :
    (Tree.array trees).AtMost (1 + n) := by
  intro depth v hv
  cases depth with
  | zero => cases hv
  | succ depth =>
    rw [valueWithin?] at hv
    obtain ⟨items, hitems, rfl⟩ := Option.map_eq_some_iff.1 hv
    exact Nat.add_le_add_left (countItems_of_mapM h hitems) 1

/-- An object is made of itself and its fields; of those with one key only the
last is left. -/
theorem Tree.atMost_object {trees : List (List Piece × Tree)} {n : Nat}
    (h : Together (fun field n => Tree.AtMost field.2 n) trees n) :
    (Tree.object trees).AtMost (1 + n) := by
  intro depth v hv
  cases depth with
  | zero => cases hv
  | succ depth =>
    rw [valueWithin?] at hv
    obtain ⟨fields, hfields, rfl⟩ := Option.map_eq_some_iff.1 hv
    have hcount := countFields_of_mapM h hfields
    have hobject := count_ofFields fields
    omega

/-- A field pays for its value; the key comes on top. -/
theorem Pays.field {value : List Char → Option (Tree × List Char)} (h : Pays Tree.AtMost value) :
    Pays (fun field n => Tree.AtMost field.2 n) (scanField value) := by
  intro text field rest hscan
  unfold scanField at hscan
  split at hscan
  · rename_i others
    simp only [Option.bind_eq_bind, Option.bind_eq_some_iff] at hscan
    obtain ⟨⟨key, more⟩, hkey, hrest⟩ := hscan
    split at hrest
    · rename_i next hcolon
      obtain ⟨⟨tree, left⟩, htree, hdone⟩ := Option.bind_eq_some_iff.1 hrest
      cases hdone
      obtain ⟨n, hn, hlength⟩ := h _ _ _ htree
      have hquoted := length_scanString hkey
      have hmore := length_skipBlanks_le more
      have hnext := length_skipBlanks_le next
      rw [hcolon, List.length_cons] at hmore
      refine ⟨n, hn, ?_⟩
      simp only [List.length_cons] at hlength hquoted hmore ⊢
      omega
    · cases hrest
  · cases hscan

/-- **A value takes a character for each value that it is made of.** -/
theorem Pays.value (bound depth : Nat) : Pays Tree.AtMost (scanValue bound depth) := by
  induction depth with
  | zero =>
    intro text tree rest hscan
    cases hscan
  | succ depth ih =>
    intro text tree rest hscan
    rw [scanValue.eq_def] at hscan
    simp only at hscan
    -- Three words, then a text, an array, an object; everything else is a number.
    split at hscan
    · cases hscan
      exact ⟨1, Tree.atMost_null, by simp only [List.length_cons]; omega⟩
    · cases hscan
      exact ⟨1, Tree.atMost_bool true, by simp only [List.length_cons]; omega⟩
    · cases hscan
      exact ⟨1, Tree.atMost_bool false, by simp only [List.length_cons]; omega⟩
    · obtain ⟨⟨pieces, left⟩, hpieces, hdone⟩ := Option.map_eq_some_iff.1 hscan
      cases hdone
      have hlength := length_scanString hpieces
      exact ⟨1, Tree.atMost_string pieces, by simp only [List.length_cons]; omega⟩
    · obtain ⟨⟨trees, left⟩, htrees, hdone⟩ := Option.map_eq_some_iff.1 hscan
      cases hdone
      obtain ⟨n, hn, hlength⟩ := ih.container _ _ _ htrees
      exact ⟨1 + n, Tree.atMost_array hn, by simp only [List.length_cons]; omega⟩
    · obtain ⟨⟨trees, left⟩, htrees, hdone⟩ := Option.map_eq_some_iff.1 hscan
      cases hdone
      obtain ⟨n, hn, hlength⟩ := ih.field.container _ _ _ htrees
      exact ⟨1 + n, Tree.atMost_object hn, by simp only [List.length_cons]; omega⟩
    · obtain ⟨⟨literal, left⟩, hliteral, hdone⟩ := Option.map_eq_some_iff.1 hscan
      cases hdone
      have hlength := length_scanNumber hliteral
      exact ⟨1, Tree.atMost_number literal, by simp only; omega⟩

/-- **A text has no fewer characters than its value is made of values.** -/
theorem count_le_of_read? {text : String} {v : Json} (h : read? text = some v) :
    v.count ≤ text.length := by
  unfold read? at h
  obtain ⟨tree, hscan, hvalue⟩ := Option.bind_eq_some_iff.1 h
  unfold Tree.scan? at hscan
  split at hscan
  · rename_i found rest hfound
    split at hscan
    · cases hscan
      obtain ⟨n, hn, hlength⟩ := Pays.value _ _ _ _ _ hfound
      have hcount := hn _ _ hvalue
      have hblank := length_skipBlanks_le text.toList
      rw [String.length_toList] at hblank
      omega
    · cases hscan
  · cases hscan

/-- **A text that has room in memory is read as a value that has room.** -/
theorem addressable_of_read? {text : String} (hlength : text.length ≤ room) {v : Json}
    (h : read? text = some v) : v.Addressable :=
  Nat.le_trans (count_le_of_read? h) hlength

end FilmCatalog.Json
