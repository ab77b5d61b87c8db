/-
  FilmCatalog.Proofs.Json.RoundTrip
  ─────────────────────────────────
  **A VALUE THAT WAS WRITTEN IS READ AGAIN.**

  The indented text of a value is scanned as a tree that has the value
  (`Returns`): scalars at once, and a container line by line.  So

      read? (v.pretty ++ "\n") = some v

  for every value whose objects have their keys in order, whose numbers are
  integers of 64 bits, and that is not nested too deep (`Writable`).
-/
import FilmCatalog.Proofs.Json.Scanning
import FilmCatalog.Proofs.Json.Size

namespace FilmCatalog.Json

/-! ## §1. Values that can be written. -/

/-- A value with at most so many nested containers that is found again in its
text. -/
def Writable : Nat → Json → Prop
  | _, .null => True
  | _, .bool _ => True
  | _, .number (.integer n) => FitsWord n
  | _, .number (.float _ _) => False
  | _, .string _ => True
  | 0, .array _ => False
  | 0, .object _ => False
  | depth + 1, .array items => ∀ item ∈ items, Writable depth item
  | depth + 1, .object fields =>
      Entries.Ascending fields ∧ ∀ field ∈ fields, Writable depth field.2

/-- Induction along the containers of a value; at level zero there are none. -/
theorem Writable.induction {motive : Nat → Json → Prop}
    (scalar : ∀ depth v, Writable 0 v → motive depth v)
    (array : ∀ depth items, (∀ item ∈ items, motive depth item) → motive (depth + 1) (.array items))
    (object : ∀ depth fields, Entries.Ascending fields → (∀ field ∈ fields, motive depth field.2) →
      motive (depth + 1) (.object fields))
    {depth : Nat} {v : Json} (h : Writable depth v) : motive depth v := by
  induction depth generalizing v with
  | zero => exact scalar 0 v h
  | succ depth ih =>
    cases v with
    | null => exact scalar _ _ trivial
    | bool value => exact scalar _ _ trivial
    | number value =>
      cases value with
      | integer n => exact scalar _ (.number (.integer n)) h
      | float negative magnitude => exact h.elim
    | string text => exact scalar _ _ trivial
    | array items => exact array depth items fun item hitem => ih (h item hitem)
    | object fields => exact object depth fields h.1 fun field hfield => ih (h.2 field hfield)

/-- A writable value without containers counts once. -/
theorem count_of_scalar {v : Json} (h : Writable 0 v) : v.count = 1 := by
  cases v with
  | array items => exact h.elim
  | object fields => exact h.elim
  | _ => rfl

/-! ## §2. Values. -/

/-- Fields in ascending order are an object as they stand. -/
theorem ofFields_of_ascending {fields : Fields} (h : Entries.Ascending fields) :
    ofFields fields = .object fields :=
  congrArg Json.object (Entries.foldl_insertEntry_of_ascending h)

section Values

variable {bound deep depth level : Nat}

/-- A text is scanned as a tree that has the value. -/
def Returns (bound deep depth : Nat) (text : List Char) (v : Json) : Prop :=
  ∃ tree, Scans (scanValue bound deep) text tree ∧ tree.valueWithin? depth = some v

/-- A character that starts a number. -/
def StartsNumber (c : Char) : Prop := c.isDigit = true ∨ c = '-'

theorem StartsNumber.ne {c mark : Char} (h : StartsNumber c) (hdigit : mark.isDigit = false)
    (hminus : mark ≠ '-') : c ≠ mark := by
  rintro rfl
  rcases h with h | h
  · rw [hdigit] at h
    cases h
  · exact hminus h

/-- A value that starts like a number is scanned as one. -/
theorem scanValue_number {c : Char} (h : StartsNumber c) (rest : List Char) :
    scanValue bound (deep + 1) (c :: rest)
      = (scanNumber (c :: rest)).map fun (literal, rest) => (.number literal, rest) := by
  rw [scanValue]
  · exact fun others heq => h.ne (by decide) (by decide) (List.cons.inj heq).1
  · exact fun others heq => h.ne (by decide) (by decide) (List.cons.inj heq).1
  · exact fun others heq => h.ne (by decide) (by decide) (List.cons.inj heq).1
  · exact fun others heq => h.ne (by decide) (by decide) (List.cons.inj heq).1
  · exact fun others heq => h.ne (by decide) (by decide) (List.cons.inj heq).1
  · exact fun others heq => h.ne (by decide) (by decide) (List.cons.inj heq).1

/-- An integer starts with a digit or a sign. -/
theorem text_integer_cons (n : Int) :
    ∃ c rest, (Number.text (.integer n)).toList = c :: rest ∧ StartsNumber c := by
  cases n with
  | ofNat n =>
    obtain ⟨first, more, hdigits, hfirst⟩ := exists_first_digit n
    exact ⟨first, more, Nat.toList_repr.trans hdigits, .inl hfirst⟩
  | negSucc n => exact ⟨'-', (Nat.repr (n + 1)).toList, String.toList_append, .inr rfl⟩

/-- A printed integer returns. -/
theorem returns_number {n : Int} (h : FitsWord n) :
    Returns bound (deep + 1) depth (Number.text (.integer n)).toList (.number (.integer n)) := by
  obtain ⟨c, more, htext, hc⟩ := text_integer_cons n
  refine ⟨.number (literalOf n), ⟨⟨c, more, htext, ?_, ?_⟩, fun rest hstops => ?_⟩, ?_⟩
  · have hspace : c ≠ ' ' := hc.ne (by decide) (by decide)
    have htab : c ≠ '\t' := hc.ne (by decide) (by decide)
    have hline : c ≠ '\n' := hc.ne (by decide) (by decide)
    have hreturn : c ≠ '\r' := hc.ne (by decide) (by decide)
    simp [isBlank, hspace, htab, hline, hreturn]
  · rintro (hclose | hclose)
    · exact hc.ne (by decide) (by decide) hclose
    · exact hc.ne (by decide) (by decide) hclose
  · have hscan := scanNumber_text hstops n
    rw [htext, List.cons_append] at hscan ⊢
    rw [scanValue_number hc, hscan]
    rfl
  · rw [Tree.valueWithin?, value?_literalOf h]
    rfl

/-- A quoted text, character by character. -/
theorem toList_quote (text : String) :
    (quote text).toList = '"' :: (text.toList.flatMap escapeChar ++ ['"']) := by
  unfold quote
  rw [String.toList_ofList, List.cons_append]

theorem starts_quote (text : String) (rest : List Char) : Starts ((quote text).toList ++ rest) := by
  rw [toList_quote]
  refine ⟨'"', _, rfl, by decide, ?_⟩
  rintro (h | h)
  · cases h
  · cases h

/-- A quoted text returns. -/
theorem returns_string (text : String) :
    Returns bound (deep + 1) depth (quote text).toList (.string text) := by
  refine ⟨.string (text.toList.map pieceOf), ⟨?_, fun rest _ => ?_⟩, ?_⟩
  · simpa using starts_quote text []
  · rw [toList_quote]
    simp only [List.cons_append, List.append_assoc, List.nil_append]
    rw [scanValue, scanString_escaped]
    rfl
  · rw [Tree.valueWithin?, pieceText?_pieces]
    rfl

/-- The items of an array, line by line. -/
theorem exists_items {items : List Json}
    (h : ∀ item ∈ items, Returns bound deep depth (item.prettyAt level).toList item) :
    ∃ trees, List.Forall₂ (Scans (scanValue bound deep))
        ((prettyItems level items).map String.toList) trees ∧
      trees.mapM (Tree.valueWithin? depth) = some items := by
  induction items with
  | nil => exact ⟨[], .nil, rfl⟩
  | cons item rest ih =>
    obtain ⟨⟨tree, hscan, hvalue⟩, hrest⟩ := List.forall_mem_cons.1 h
    obtain ⟨trees, hscans, hvalues⟩ := ih hrest
    refine ⟨tree :: trees, .cons hscan hscans, ?_⟩
    rw [List.mapM_cons, hvalue, hvalues]
    rfl

/-- A key and its value, on one line. -/
theorem scans_field {key : String} {text : List Char} {tree : Tree}
    (h : Scans (scanValue bound deep) text tree) :
    Scans (scanField (scanValue bound deep)) ((quote key).toList ++ ':' :: ' ' :: text)
      (key.toList.map pieceOf, tree) where
  starts := starts_quote key _
  scan := by
    intro rest hstops
    have hblank : skipBlanks (' ' :: (text ++ rest)) = text ++ rest := by
      show skipBlanks (text ++ rest) = text ++ rest
      exact skipBlanks_starts h.starts rest
    rw [toList_quote]
    simp only [List.cons_append, List.append_assoc, List.nil_append]
    rw [scanField, scanString_escaped]
    simp only [Option.bind_eq_bind, Option.bind_some]
    rw [skipBlanks_of_not_blank (by decide)]
    simp only [hblank, h.scan rest hstops]
    rfl

/-- The fields of an object, line by line. -/
theorem exists_fields {fields : Fields}
    (h : ∀ field ∈ fields, Returns bound deep depth (field.2.prettyAt level).toList field.2) :
    ∃ trees : List (List Piece × Tree), List.Forall₂ (Scans (scanField (scanValue bound deep)))
        ((prettyFields level fields).map String.toList) trees ∧
      (trees.mapM fun (field : List Piece × Tree) => do
        let key ← pieceText? field.1
        let value ← field.2.valueWithin? depth
        return (key, value)) = some fields := by
  induction fields with
  | nil => exact ⟨[], .nil, rfl⟩
  | cons field rest ih =>
    obtain ⟨key, value⟩ := field
    obtain ⟨⟨tree, hscan, hvalue⟩, hrest⟩ := List.forall_mem_cons.1 h
    obtain ⟨trees, hscans, hvalues⟩ := ih hrest
    refine ⟨(key.toList.map pieceOf, tree) :: trees, ?_, ?_⟩
    · rw [prettyFields, List.map_cons]
      refine .cons ?_ hscans
      have hline : (quote key ++ ": " ++ value.prettyAt level).toList
          = (quote key).toList ++ ':' :: ' ' :: (value.prettyAt level).toList := by
        simp
      rw [hline]
      exact scans_field hscan
    · rw [List.mapM_cons, hvalues]
      simp only [pieceText?_pieces, hvalue]
      rfl

theorem length_prettyItems (level : Nat) (items : List Json) :
    (prettyItems level items).length = items.length := by
  induction items with
  | nil => rfl
  | cons item rest ih => rw [prettyItems, List.length_cons, List.length_cons, ih]

theorem length_prettyFields (level : Nat) (fields : Fields) :
    (prettyFields level fields).length = fields.length := by
  induction fields with
  | nil => rfl
  | cons field rest ih => rw [prettyFields, List.length_cons, List.length_cons, ih]

theorem starts_of_append {c : Char} {text : List Char} {body : List Char → List Char}
    (h : ∀ rest, text ++ rest = c :: body rest) (hblank : isBlank c = false) (hclose : ¬ Closes c) :
    Starts text := by
  have htext := h []
  rw [List.append_nil] at htext
  exact ⟨c, body [], htext, hblank, hclose⟩

/-- An array returns if its items do. -/
theorem returns_array {items : List Json} (hbound : items.length ≤ bound)
    (h : ∀ item ∈ items, Returns bound deep depth (item.prettyAt (level + 1)).toList item) :
    Returns bound (deep + 1) (depth + 1) ((Json.array items).prettyAt level).toList
      (.array items) := by
  obtain ⟨trees, hscans, hvalues⟩ := exists_items h
  have htext : ∀ rest, ((Json.array items).prettyAt level).toList ++ rest
      = '[' :: blockBody level ((prettyItems (level + 1) items).map String.toList) ']' rest := by
    intro rest
    rw [prettyAt, toList_block (show "]".toList = [']'] by simp)]
    simp
  refine ⟨.array trees, ⟨?_, fun rest _ => ?_⟩, ?_⟩
  · exact starts_of_append htext (by decide) (by simp [Closes])
  · rw [htext, scanValue, scanContainer_body (.inl rfl) hscans]
    · rfl
    · rw [List.length_map, length_prettyItems]
      exact hbound
  · rw [Tree.valueWithin?, hvalues]
    rfl

/-- An object returns if its fields do and its keys ascend. -/
theorem returns_object {fields : Fields} (hbound : fields.length ≤ bound)
    (hascending : Entries.Ascending fields)
    (h : ∀ field ∈ fields, Returns bound deep depth (field.2.prettyAt (level + 1)).toList field.2) :
    Returns bound (deep + 1) (depth + 1) ((Json.object fields).prettyAt level).toList
      (.object fields) := by
  obtain ⟨trees, hscans, hvalues⟩ := exists_fields h
  have htext : ∀ rest, ((Json.object fields).prettyAt level).toList ++ rest
      = '\x7b' :: blockBody level ((prettyFields (level + 1) fields).map String.toList) '\x7d'
          rest := by
    intro rest
    rw [prettyAt, toList_block (show "\x7d".toList = ['\x7d'] by simp)]
    simp
  refine ⟨.object trees, ⟨?_, fun rest _ => ?_⟩, ?_⟩
  · exact starts_of_append htext (by decide) (by simp [Closes])
  · rw [htext, scanValue, scanContainer_body (.inr rfl) hscans]
    · rfl
    · rw [List.length_map, length_prettyFields]
      exact hbound
  · rw [Tree.valueWithin?, hvalues]
    exact congrArg some (ofFields_of_ascending hascending)

/-- One of the three words. -/
theorem returns_word {c : Char} {letters : List Char} {tree : Tree} {v : Json}
    (hblank : isBlank c = false) (hclose : ¬ Closes c)
    (hscan : ∀ rest, scanValue bound deep (c :: letters ++ rest) = some (tree, rest))
    (hvalue : tree.valueWithin? depth = some v) : Returns bound deep depth (c :: letters) v :=
  ⟨tree, ⟨⟨c, letters, rfl, hblank, hclose⟩, fun rest _ => hscan rest⟩, hvalue⟩

/-- Values that hold no other ones. -/
theorem returns_scalar {v : Json} (h : Writable 0 v) :
    Returns bound (deep + 1) depth (v.prettyAt level).toList v := by
  cases v with
  | null =>
    have htext : (Json.null.prettyAt level).toList = ['n', 'u', 'l', 'l'] := by simp [prettyAt]
    rw [htext]
    exact returns_word (by decide) (by simp [Closes]) (fun _ => rfl) (by rw [Tree.valueWithin?])
  | bool value =>
    cases value with
    | true =>
      have htext : ((Json.bool true).prettyAt level).toList = ['t', 'r', 'u', 'e'] := by
        simp [prettyAt]
      rw [htext]
      exact returns_word (by decide) (by simp [Closes]) (fun _ => rfl) (by rw [Tree.valueWithin?])
    | false =>
      have htext : ((Json.bool false).prettyAt level).toList = ['f', 'a', 'l', 's', 'e'] := by
        simp [prettyAt]
      rw [htext]
      exact returns_word (by decide) (by simp [Closes]) (fun _ => rfl) (by rw [Tree.valueWithin?])
  | number value =>
    cases value with
    | integer n => exact returns_number h
    | float negative magnitude => exact h.elim
  | string text => exact returns_string text
  | array items => exact h.elim
  | object fields => exact h.elim

end Values

/-- **Every value that can be written is scanned as itself.** -/
theorem returns_prettyAt {depth : Nat} {v : Json} (h : Writable depth v) {bound : Nat}
    (hbound : v.count ≤ bound) : ∀ {deep : Nat}, v.count ≤ deep → ∀ level : Nat,
      Returns bound deep depth (v.prettyAt level).toList v := by
  revert hbound
  refine Writable.induction (motive := fun depth v => v.count ≤ bound → ∀ {deep : Nat},
    v.count ≤ deep → ∀ level, Returns bound deep depth (v.prettyAt level).toList v) ?_ ?_ ?_ h
  · intro depth v h _ deep hdeep level
    obtain ⟨deep, rfl⟩ : ∃ less, deep = less + 1 :=
      Nat.exists_eq_add_one.2 (Nat.lt_of_lt_of_le v.count_pos hdeep)
    exact returns_scalar h
  · intro depth items ih hbound deep hdeep level
    rw [count] at hbound hdeep
    obtain ⟨deep, rfl⟩ : ∃ less, deep = less + 1 := Nat.exists_eq_add_one.2 (by omega)
    have hlength := length_le_countItems items
    refine returns_array (by omega) fun item hitem => ?_
    have hsize := count_le_countItems hitem
    exact ih item hitem (by omega) (by omega) (level + 1)
  · intro depth fields hascending ih hbound deep hdeep level
    rw [count] at hbound hdeep
    obtain ⟨deep, rfl⟩ : ∃ less, deep = less + 1 := Nat.exists_eq_add_one.2 (by omega)
    have hlength := length_le_countFields fields
    refine returns_object (by omega) hascending fun field hfield => ?_
    have hsize := count_le_of_mem_fields hfield
    exact ih field hfield (by omega) (by omega) (level + 1)

/-! ## §3. Whole texts. -/

/-- A block has room for its lines. -/
theorem length_lines_le (width : Nat) (lines : List (List Char)) (close : List Char) :
    lines.flatten.length ≤ (blockTail width lines close).length := by
  induction lines with
  | nil => simp
  | cons line rest ih =>
    cases rest with
    | nil =>
      rw [blockTail_single]
      simp only [List.flatten_cons, List.flatten_nil, List.length_cons, List.length_append,
        List.length_nil]
      omega
    | cons next rest =>
      rw [blockTail_cons, List.flatten_cons]
      simp only [List.length_cons, List.length_append] at ih ⊢
      omega

/-- The marks of a block come on top of its lines. -/
theorem length_block_lt {opening mark : String} {close : Char} (hopening : opening.toList ≠ [])
    (hmark : mark.toList = [close]) (level : Nat) (lines : List String) :
    (lines.map String.toList).flatten.length < (block opening mark level lines).toList.length := by
  have htext : (block opening mark level lines).toList ++ []
      = opening.toList ++ blockBody level (lines.map String.toList) close [] :=
    toList_block hmark level lines []
  have hpos := List.length_pos_iff.2 hopening
  rw [List.append_nil] at htext
  rw [htext, List.length_append]
  unfold blockBody
  split
  · rename_i hnone
    rw [hnone]
    simp
  · have hlines := length_lines_le (4 * (level + 1)) (lines.map String.toList)
      (closing (4 * level) close [])
    omega

/-- Items count no more than their lines take, if each of them does. -/
theorem countItems_le {level : Nat} {items : List Json}
    (h : ∀ item ∈ items, item.count ≤ (item.prettyAt level).toList.length) :
    countItems items ≤ ((prettyItems level items).map String.toList).flatten.length := by
  induction items with
  | nil => exact Nat.le_refl 0
  | cons item rest ih =>
    obtain ⟨hitem, hrest⟩ := List.forall_mem_cons.1 h
    rw [countItems, prettyItems, List.map_cons, List.flatten_cons, List.length_append]
    exact Nat.add_le_add hitem (ih hrest)

/-- So do fields, whose keys come on top. -/
theorem countFields_le {level : Nat} {fields : Fields}
    (h : ∀ field ∈ fields, field.2.count ≤ (field.2.prettyAt level).toList.length) :
    countFields fields ≤ ((prettyFields level fields).map String.toList).flatten.length := by
  induction fields with
  | nil => exact Nat.le_refl 0
  | cons field rest ih =>
    obtain ⟨hfield, hrest⟩ := List.forall_mem_cons.1 h
    rw [countFields, prettyFields, List.map_cons, List.flatten_cons, List.length_append,
      String.toList_append, List.length_append]
    exact Nat.add_le_add (Nat.le_add_left_of_le hfield) (ih hrest)

/-- A text has a character for every value at least. -/
theorem count_le_length {depth : Nat} {v : Json} (h : Writable depth v) :
    ∀ level : Nat, v.count ≤ (v.prettyAt level).toList.length := by
  refine Writable.induction (motive := fun _ v => ∀ level : Nat,
    v.count ≤ (v.prettyAt level).toList.length) ?_ ?_ ?_ h
  · intro depth v h level
    obtain ⟨tree, hscans, _⟩ : Returns 0 1 0 (v.prettyAt level).toList v := returns_scalar h
    obtain ⟨c, rest, htext, _⟩ := hscans.starts
    rw [count_of_scalar h, htext]
    exact Nat.succ_pos _
  · intro depth items ih level
    have hitems := countItems_le fun item hitem => ih item hitem (level + 1)
    have hblock := length_block_lt (show "[".toList ≠ [] by simp) (show "]".toList = [']'] by simp)
      level (prettyItems (level + 1) items)
    rw [count, prettyAt]
    omega
  · intro depth fields _ ih level
    have hfields := countFields_le fun field hfield => ih field hfield (level + 1)
    have hblock := length_block_lt (show "\x7b".toList ≠ [] by simp)
      (show "\x7d".toList = ['\x7d'] by simp) level (prettyFields (level + 1) fields)
    rw [count, prettyAt]
    omega

/-- **A value that was written is read again.** -/
theorem read?_pretty {v : Json} (h : Writable nestingLimit v) :
    read? (v.pretty ++ "\n") = some v := by
  have htext : (v.pretty ++ "\n").toList = (v.prettyAt 0).toList ++ ['\n'] := by
    simp [pretty]
  have hlength : v.count ≤ (v.pretty ++ "\n").length := by
    rw [← String.length_toList, htext, List.length_append]
    exact Nat.le_add_right_of_le (count_le_length h 0)
  obtain ⟨tree, hscans, hvalue⟩ :=
    returns_prettyAt h hlength (Nat.le_succ_of_le hlength) 0
  have hstops : Stops ['\n'] := fun c hc => .inr (Option.some.inj hc).symm
  have hscan : Tree.scan? (v.pretty ++ "\n") = some tree := by
    unfold Tree.scan?
    rw [htext, skipBlanks_starts hscans.starts, hscans.scan _ hstops]
    rfl
  unfold read?
  rw [hscan]
  exact hvalue

end FilmCatalog.Json
