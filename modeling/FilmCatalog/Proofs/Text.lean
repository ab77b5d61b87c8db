/-
  FilmCatalog.Proofs.Text
  ───────────────────────
  **CUTS OF A TEXT.**

  A text is cut at the first place of a mark, and the part before it does not
  hold the mark.  So what was joined with a mark is cut into its parts again,
  if the first of them is free of the mark.  The last place and all places of a
  mark have the same laws.

  White space at the ends of a text is cut off once and for all.  The digits of
  a number are read back as the number.
-/
import Mathlib.Data.List.DropRight
import FilmCatalog.Text.Blank
import FilmCatalog.Text.Parts

namespace FilmCatalog.Text

/-! ## §1. The first place of a mark. -/

variable {mark : Char}

/-- Without the mark there is no first place. -/
theorem splitFirst_eq_none {text : List Char} (h : mark ∉ text) : splitFirst mark text = none := by
  induction text with
  | nil => rfl
  | cons c rest ih =>
    obtain ⟨hc, hrest⟩ := not_or.1 (fun hmem => h (List.mem_cons.2 hmem))
    rw [splitFirst, if_neg (fun heq => hc heq.symm), ih hrest, Option.map_none]

/-- A text is split at the first mark. -/
theorem splitFirst_append {before : List Char} (h : mark ∉ before) (after : List Char) :
    splitFirst mark (before ++ mark :: after) = some (before, after) := by
  induction before with
  | nil => rw [List.nil_append, splitFirst, if_pos rfl]
  | cons c rest ih =>
    obtain ⟨hc, hrest⟩ := not_or.1 (fun hmem => h (List.mem_cons.2 hmem))
    rw [List.cons_append, splitFirst, if_neg (fun heq => hc heq.symm), ih hrest, Option.map_some]

/-- The mark is not in the part before its first place, nor in a text that
cannot be cut. -/
theorem not_mem_splitFirst (mark : Char) (text : List Char) :
    match splitFirst mark text with
    | some (before, _) => mark ∉ before
    | none => mark ∉ text := by
  induction text with
  | nil => exact List.not_mem_nil
  | cons c rest ih =>
    rw [splitFirst]
    by_cases hc : c = mark
    · rw [if_pos hc]
      exact List.not_mem_nil
    · rw [if_neg hc]
      cases hrest : splitFirst mark rest with
      | none =>
        rw [hrest] at ih
        simp only [Option.map_none]
        exact List.not_mem_cons_of_ne_of_not_mem (fun heq => hc heq.symm) ih
      | some parts =>
        rw [hrest] at ih
        simp only [Option.map_some]
        exact List.not_mem_cons_of_ne_of_not_mem (fun heq => hc heq.symm) ih

/-! ## §2. Joined texts. -/

theorem cutFirst_eq_none {text : String} (h : mark ∉ text.toList) : cutFirst mark text = none := by
  unfold cutFirst
  rw [splitFirst_eq_none h, Option.map_none]

theorem cutFirst_colon {before : String} (h : ':' ∉ before.toList) (after : String) :
    cutFirst ':' (before ++ ":" ++ after) = some (before, after) := by
  have hchars : (before ++ ":" ++ after).toList = before.toList ++ ':' :: after.toList := by
    rw [String.toList_append, String.toList_append, List.append_assoc]
    rfl
  unfold cutFirst
  rw [hchars, splitFirst_append h, Option.map_some]
  show some (String.ofList before.toList, String.ofList after.toList) = _
  rw [String.ofList_toList, String.ofList_toList]

theorem toList_slash (before after : String) :
    (before ++ "/" ++ after).toList = before.toList ++ '/' :: after.toList := by
  rw [String.toList_append, String.toList_append, List.append_assoc]
  rfl

/-! ## §3. The start of a text. -/

/-- The start of a text can be dropped exactly if the text starts with it. -/
theorem dropStart?_eq_some_iff {start text rest : List Char} :
    dropStart? start text = some rest ↔ text = start ++ rest := by
  induction start generalizing text with
  | nil => simp [dropStart?]
  | cons c start ih =>
    cases text with
    | nil => simp [dropStart?]
    | cons d text =>
      rw [dropStart?]
      by_cases hc : c = d
      · rw [if_pos hc, ih, List.cons_append, hc]
        simp
      · rw [if_neg hc]
        simp [Ne.symm hc]

/-- The same for strings. -/
theorem afterStart?_eq_some_iff {start text rest : String} :
    afterStart? start text = some rest ↔ text = start ++ rest := by
  unfold afterStart?
  rw [Option.map_eq_some_iff, ← String.toList_inj, String.toList_append]
  constructor
  · rintro ⟨chars, hchars, rfl⟩
    rw [String.toList_ofList]
    exact dropStart?_eq_some_iff.1 hchars
  · intro h
    exact ⟨rest.toList, dropStart?_eq_some_iff.2 h, String.ofList_toList⟩

/-- **The common start of two texts is the longest**: whatever both start with,
it starts with. -/
theorem prefix_commonStart_iff {start text other : List Char} :
    start <+: commonStart text other ↔ start <+: text ∧ start <+: other := by
  induction start generalizing text other with
  | nil => simp
  | cons c start ih =>
    cases text with
    | nil => simp [commonStart]
    | cons a text =>
      cases other with
      | nil => simp [commonStart]
      | cons b other =>
        rw [commonStart]
        by_cases hab : a = b
        · rw [if_pos hab, List.cons_prefix_cons, List.cons_prefix_cons, List.cons_prefix_cons, ih,
            hab, and_and_left]
        · rw [if_neg hab, List.cons_prefix_cons, List.cons_prefix_cons]
          simp only [List.prefix_nil, reduceCtorEq, false_iff]
          rintro ⟨⟨rfl, _⟩, hcb, _⟩
          exact hab hcb

/-! ## §4. The last place of a mark. -/

/-- Without the mark there is no last place. -/
theorem splitLast_eq_none {text : List Char} (h : mark ∉ text) : splitLast mark text = none := by
  induction text with
  | nil => rfl
  | cons c rest ih =>
    obtain ⟨hc, hrest⟩ := not_or.1 (fun hmem => h (List.mem_cons.2 hmem))
    rw [splitLast, ih hrest]
    simp only [if_neg (Ne.symm hc)]

/-- A text is split at the last mark. -/
theorem splitLast_append (before : List Char) {after : List Char} (h : mark ∉ after) :
    splitLast mark (before ++ mark :: after) = some (before, after) := by
  induction before with
  | nil =>
    rw [List.nil_append, splitLast, splitLast_eq_none h]
    simp only [if_true]
  | cons c rest ih => rw [List.cons_append, splitLast, ih]

theorem cutLast_slash (before : String) {after : String} (h : '/' ∉ after.toList) :
    cutLast '/' (before ++ "/" ++ after) = some (before, after) := by
  unfold cutLast
  rw [toList_slash, splitLast_append before.toList h, Option.map_some]
  show some (String.ofList before.toList, String.ofList after.toList) = _
  rw [String.ofList_toList, String.ofList_toList]

/-- A text with the mark can be cut at the last place of it. -/
theorem exists_last {text : List Char} (h : mark ∈ text) :
    ∃ before after, text = before ++ mark :: after ∧ mark ∉ after := by
  obtain ⟨after, before, htext, hafter⟩ := List.eq_append_cons_of_mem (List.mem_reverse.2 h)
  refine ⟨before.reverse, after.reverse, ?_, fun hmem => hafter (List.mem_reverse.1 hmem)⟩
  rw [← List.reverse_reverse text, htext]
  simp

/-! ## §5. All places of a mark. -/

/-- The parts between marks are those of the library's `List.splitOn`. -/
theorem splitAll_eq (mark : Char) (text : List Char) : splitAll mark text = text.splitOn mark := by
  induction text with
  | nil => rfl
  | cons c rest ih =>
    rw [splitAll, List.splitOn_cons_eq_if_modifyHead, ih]
    by_cases hc : c = mark
    · rw [if_pos hc, if_pos (beq_iff_eq.2 hc)]
    · rw [if_neg hc, if_neg (fun hmark => hc (beq_iff_eq.1 hmark))]
      cases hparts : List.splitOn mark rest with
      | nil => exact absurd hparts (List.splitOn_ne_nil mark rest)
      | cons part parts => rfl

/-- No part between the marks holds a mark. -/
theorem not_mem_of_mem_splitAll {part text : List Char} (h : part ∈ splitAll mark text) :
    mark ∉ part := by
  induction text generalizing part with
  | nil =>
    rw [List.mem_singleton.1 h]
    exact List.not_mem_nil
  | cons c rest ih =>
    rw [splitAll] at h
    split at h
    · rcases List.mem_cons.1 h with rfl | h
      · exact List.not_mem_nil
      · exact ih h
    · rename_i hc
      split at h
      · rw [List.mem_singleton.1 h]
        simpa using Ne.symm hc
      · rename_i first others hsplit
        rw [hsplit] at ih
        rcases List.mem_cons.1 h with rfl | h
        · exact List.not_mem_cons_of_ne_of_not_mem (Ne.symm hc) (ih List.mem_cons_self)
        · exact ih (List.mem_cons_of_mem _ h)

/-- Two groups of parts are joined by one more mark. -/
theorem intercalate_append (mark : Char) {parts others : List (List Char)} (hparts : parts ≠ [])
    (hothers : others ≠ []) :
    [mark].intercalate (parts ++ others)
      = [mark].intercalate parts ++ mark :: [mark].intercalate others := by
  induction parts with
  | nil => exact absurd rfl hparts
  | cons part rest ih =>
    cases rest with
    | nil =>
      rw [List.singleton_append, List.intercalate_cons_of_ne_nil hothers,
        List.intercalate_singleton, List.append_assoc]
      rfl
    | cons next remaining =>
      rw [List.cons_append, List.intercalate_cons_of_ne_nil (by simp), ih (by simp),
        List.intercalate_cons_cons]
      simp

/-- Without the mark a text is its only part. -/
theorem splitAll_of_not_mem {text : List Char} (h : mark ∉ text) : splitAll mark text = [text] := by
  induction text with
  | nil => rfl
  | cons c rest ih =>
    obtain ⟨hc, hrest⟩ := not_or.1 (fun hmem => h (List.mem_cons.2 hmem))
    rw [splitAll, if_neg (fun heq => hc heq.symm), ih hrest]

theorem pieces_of_not_mem {text : String} (h : mark ∉ text.toList) : pieces mark text = [text] := by
  unfold pieces
  rw [splitAll_of_not_mem h, List.map_singleton, String.ofList_toList]

/-- The parts of a path are those before a slash and those behind it. -/
theorem pieces_slash (before after : String) :
    pieces '/' (before ++ "/" ++ after) = pieces '/' before ++ pieces '/' after := by
  unfold pieces
  rw [toList_slash, splitAll_eq, splitAll_eq, splitAll_eq, List.splitOn_append_cons_self,
    List.map_append]

/-- No part holds the mark. -/
theorem not_mem_of_mem_pieces {piece text : String} (h : piece ∈ pieces mark text) :
    mark ∉ piece.toList := by
  obtain ⟨part, hpart, rfl⟩ := List.mem_map.1 h
  rw [String.toList_ofList]
  exact not_mem_of_mem_splitAll hpart

/-! ## §6. White space. -/

/-- White space is dropped at the start, then at the end. -/
theorem toList_trim (text : String) :
    (trim text).toList = List.rdropWhile isSpace (text.toList.dropWhile isSpace) :=
  String.toList_ofList

/-- What is not in a text is not in the trimmed one. -/
theorem not_mem_trim {c : Char} {text : String} (h : c ∉ text.toList) : c ∉ (trim text).toList := by
  rw [toList_trim]
  intro hmem
  exact h ((List.dropWhile_suffix _).subset ((List.rdropWhile_prefix _ _).subset hmem))

/-- **A text that was trimmed stays what it is.** -/
theorem trim_trim (text : String) : trim (trim text) = trim text := by
  -- A text that does not start with white space does not do so when its end is cut off.
  have hstart : ∀ chars : List Char, chars.dropWhile isSpace = chars →
      (List.rdropWhile isSpace chars).dropWhile isSpace = List.rdropWhile isSpace chars := by
    intro chars hchars
    refine List.dropWhile_eq_self_iff.2 fun hlength => ?_
    have hcut := List.rdropWhile_prefix isSpace chars
    rw [hcut.getElem hlength]
    exact List.dropWhile_eq_self_iff.1 hchars (Nat.lt_of_lt_of_le hlength hcut.length_le)
  rw [← String.toList_inj, toList_trim, toList_trim, hstart _ (List.dropWhile_idempotent _ _),
    List.rdropWhile_idempotent]

/-! ## §7. Digits. -/

/-- A natural is read from its digits. -/
theorem ofDigitChars_repr (n : Nat) : Nat.ofDigitChars 10 (Nat.repr n).toList 0 = n := by
  rw [Nat.toList_repr]
  exact Nat.ofDigitChars_toDigits (by decide) (by decide)

/-- **Digits tell their number.** -/
theorem repr_injective {m n : Nat} (h : Nat.repr m = Nat.repr n) : m = n := by
  rw [← ofDigitChars_repr m, h, ofDigitChars_repr]

end FilmCatalog.Text
