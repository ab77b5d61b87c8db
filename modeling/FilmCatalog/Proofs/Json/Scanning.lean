/-
  FilmCatalog.Proofs.Json.Scanning
  ────────────────────────────────
  **WHAT WAS WRITTEN IS SCANNED AS IT STANDS.**

  A text is scanned from left to right.  What was written for a string, for an
  integer or for a line of a container is taken up to its last character and no
  further, if a comma or the end of a line follows (`Scans`).  A container is a
  block of such lines (`scanContainer_body`).
-/
import Mathlib.Data.List.TakeDrop
import FilmCatalog.Json.Printer
import FilmCatalog.Json.Reader

namespace FilmCatalog.Json

/-! ## §1. Blanks. -/

/-- Nothing is skipped in front of a character that counts. -/
theorem skipBlanks_of_not_blank {c : Char} (h : isBlank c = false) (rest : List Char) :
    skipBlanks (c :: rest) = c :: rest := by
  unfold skipBlanks
  rw [List.dropWhile_cons_of_neg (by simp [h])]

/-- The start of a line is skipped. -/
theorem skipBlanks_line (width : Nat) (rest : List Char) :
    skipBlanks ('\n' :: (List.replicate width ' ' ++ rest)) = skipBlanks rest := by
  unfold skipBlanks
  rw [List.dropWhile_cons_of_pos (by decide), List.dropWhile_append_of_pos]
  intro c hc
  rw [(List.mem_replicate.1 hc).2]
  decide

/-! ## §2. Strings. -/

/-- How a character comes back from its escape. -/
def pieceOf (c : Char) : Piece :=
  if c = '\x08' ∨ c = '\x0c' ∨ c = '\n' ∨ c = '\r' ∨ c = '\t' then .char c
  else if c.toNat < 0x20 then .unit c.toNat
  else .char c

/-- Control characters are written with four hexadecimal digits. -/
theorem unitEscape_spec : ∀ n < 0x20,
    unitEscape (Char.ofNat n)
        = ['\\', 'u', '0', '0', Nat.digitChar (n / 16), Nat.digitChar (n % 16)] ∧
      codeUnit? '0' '0' (Nat.digitChar (n / 16)) (Nat.digitChar (n % 16)) = some n := by
  decide

/-- A character with a short escape is found again. -/
theorem scanString_short {letter c : Char} {text rest : List Char} {pieces : List Piece}
    (hletter : shortEscape? letter = some c) (h : scanString text = some (pieces, rest)) :
    scanString ('\\' :: letter :: text) = some (.char c :: pieces, rest) := by
  have hunit : letter ≠ 'u' := by
    rintro rfl
    simp [shortEscape?] at hletter
  rw [scanString, hletter, h]
  · rfl
  · intro _ _ _ _ _ heq
    exact absurd heq hunit

/-- A control character without one is found again by its number. -/
theorem scanString_unit {c : Char} {text rest : List Char} {pieces : List Piece}
    (hc : c.toNat < 0x20) (h : scanString text = some (pieces, rest)) :
    scanString (unitEscape c ++ text) = some (.unit c.toNat :: pieces, rest) := by
  obtain ⟨hescape, hcode⟩ := unitEscape_spec c.toNat hc
  rw [Char.ofNat_toNat] at hescape
  rw [hescape]
  simp only [List.cons_append, List.nil_append]
  rw [scanString, hcode, h]
  rfl

/-- All other characters stand for themselves. -/
theorem scanString_plain {c : Char} {text rest : List Char} {pieces : List Piece}
    (hquote : c ≠ '"') (hslash : c ≠ '\\') (hc : ¬ c.toNat < 0x20)
    (h : scanString text = some (pieces, rest)) :
    scanString (c :: text) = some (.char c :: pieces, rest) := by
  rw [scanString, if_neg (not_or.2 ⟨hslash, hc⟩), h]
  · rfl
  · exact fun heq => absurd heq hquote
  · intro _ _ _ _ _ heq
    exact absurd heq hslash
  · intro _ _ heq
    exact absurd heq hslash

/-- A character is written with a short escape, with a code unit or as itself. -/
theorem escapeChar_cases (c : Char) :
    (∃ letter, escapeChar c = ['\\', letter] ∧ shortEscape? letter = some c ∧ pieceOf c = .char c) ∨
    (escapeChar c = unitEscape c ∧ c.toNat < 0x20 ∧ pieceOf c = .unit c.toNat) ∨
    (escapeChar c = [c] ∧ (c ≠ '"' ∧ c ≠ '\\' ∧ ¬ c.toNat < 0x20) ∧ pieceOf c = .char c) := by
  by_cases hshort : c ∈ ['"', '\\', '\x08', '\x0c', '\n', '\r', '\t']
  · simp only [List.mem_cons, List.not_mem_nil, or_false] at hshort
    left
    rcases hshort with rfl | rfl | rfl | rfl | rfl | rfl | rfl
    · exact ⟨'"', rfl, rfl, rfl⟩
    · exact ⟨'\\', rfl, rfl, rfl⟩
    · exact ⟨'b', rfl, rfl, rfl⟩
    · exact ⟨'f', rfl, rfl, rfl⟩
    · exact ⟨'n', rfl, rfl, rfl⟩
    · exact ⟨'r', rfl, rfl, rfl⟩
    · exact ⟨'t', rfl, rfl, rfl⟩
  · simp only [List.mem_cons, List.not_mem_nil, or_false, not_or] at hshort
    right
    unfold escapeChar pieceOf
    by_cases hc : c.toNat < 0x20
    · simp [hshort, hc]
    · simp [hshort, hc]

/-- **A character is scanned as its piece.** -/
theorem scanString_escapeChar (c : Char) {text rest : List Char} {pieces : List Piece}
    (h : scanString text = some (pieces, rest)) :
    scanString (escapeChar c ++ text) = some (pieceOf c :: pieces, rest) := by
  obtain ⟨letter, hescape, hletter, hpiece⟩ | ⟨hescape, hc, hpiece⟩ | ⟨hescape, hc, hpiece⟩ :=
    escapeChar_cases c
  · rw [hescape, hpiece]
    exact scanString_short hletter h
  · rw [hescape, hpiece]
    exact scanString_unit hc h
  · rw [hescape, hpiece]
    exact scanString_plain hc.1 hc.2.1 hc.2.2 h

/-- **An escaped text is scanned up to its closing quote**, character by
character. -/
theorem scanString_escaped (chars rest : List Char) :
    scanString (chars.flatMap escapeChar ++ '"' :: rest) = some (chars.map pieceOf, rest) := by
  induction chars with
  | nil => rw [List.flatMap_nil, List.nil_append, scanString, List.map_nil]
  | cons c chars ih =>
    rw [List.flatMap_cons, List.append_assoc, List.map_cons]
    exact scanString_escapeChar c ih

/-- The number of a control character is decoded as that character. -/
theorem decodePieces_unit {code : Nat} (h : code < 0x20) (rest : List Piece) :
    decodePieces (.unit code :: rest) = (decodePieces rest).map (Char.ofNat code :: ·) := by
  have hlow : ¬ (0xd800 ≤ code ∧ code < 0xdc00) := by omega
  have hhigh : ¬ (0xdc00 ≤ code ∧ code < 0xe000) := by omega
  have hboth : ¬ (0xd800 ≤ code ∧ code < 0xe000) := by omega
  cases rest with
  | nil => simp [decodePieces, hboth]
  | cons next rest =>
    cases next with
    | char c => simp [decodePieces, hboth]
    | unit low => rw [decodePieces, if_neg hlow, if_neg hhigh]

/-- Each piece is decoded as the character that it was made for. -/
theorem decodePieces_pieceOf (c : Char) (rest : List Piece) :
    decodePieces (pieceOf c :: rest) = (decodePieces rest).map (c :: ·) := by
  obtain ⟨_, _, _, hpiece⟩ | ⟨_, hc, hpiece⟩ | ⟨_, _, hpiece⟩ := escapeChar_cases c
  · rw [hpiece, decodePieces]
  · rw [hpiece, decodePieces_unit hc, Char.ofNat_toNat]
  · rw [hpiece, decodePieces]

/-- **The pieces of a text spell it.** -/
theorem pieceText?_pieces (text : String) : pieceText? (text.toList.map pieceOf) = some text := by
  have hdecode : ∀ chars : List Char, decodePieces (chars.map pieceOf) = some chars := by
    intro chars
    induction chars with
    | nil => rfl
    | cons c chars ih => rw [List.map_cons, decodePieces_pieceOf, ih, Option.map_some]
  unfold pieceText?
  rw [hdecode, Option.map_some, String.ofList_toList]

/-! ## §3. Numbers. -/

/-- What follows a value in a block of lines, or at the end of a text. -/
def Stops (rest : List Char) : Prop := ∀ c ∈ rest.head?, c = ',' ∨ c = '\n'

/-- The digits of a natural. -/
def digitsOf (n : Nat) : List Nat := (Nat.toDigits 10 n).map fun c => c.toNat - '0'.toNat

/-- A number is told by its digits. -/
theorem ofDigits_digitsOf (n : Nat) : ofDigits (digitsOf n) = n := by
  have hdigits : Nat.ofDigitChars 10 (Nat.toDigits 10 n) 0 = n :=
    Nat.ofDigitChars_toDigits (by decide) (by decide)
  unfold ofDigits digitsOf
  rw [List.foldl_map]
  exact hdigits

theorem exists_first_digit (n : Nat) :
    ∃ first more, Nat.toDigits 10 n = first :: more ∧ first.isDigit = true := by
  cases hdigits : Nat.toDigits 10 n with
  | nil => exact absurd hdigits Nat.toDigits_ne_nil
  | cons first more =>
    refine ⟨first, more, rfl, ?_⟩
    exact Nat.isDigit_of_mem_toDigits (by decide) (by decide) (hdigits ▸ List.mem_cons_self)

/-- An integer of 64 bits, with or without sign. -/
def FitsWord (n : Int) : Prop := -9223372036854775808 ≤ n ∧ n ≤ maxWord

/-- The spelling of an integer. -/
def literalOf : Int → Literal
  | .ofNat n => ⟨false, digitsOf n, none, none⟩
  | .negSucc n => ⟨true, digitsOf (n + 1), none, none⟩

/-- A number that fits into a word is read from its literal. -/
theorem value?_literalOf {n : Int} (h : FitsWord n) : (literalOf n).value? = some (.integer n) := by
  obtain ⟨hleast, hgreatest⟩ := h
  cases n with
  | ofNat n =>
    have hword : n ≤ maxWord := Int.ofNat_le.1 hgreatest
    unfold Literal.value? literalOf
    simp [ofDigits_digitsOf, hword]
  | negSucc n =>
    have hword : n + 1 ≤ 9223372036854775808 := by omega
    unfold Literal.value? literalOf
    simp [ofDigits_digitsOf, hword, Int.negSucc_eq]

/-- Only zero starts with the digit zero. -/
theorem toDigits_ne_zero_cons {n : Nat} (h : 0 < n) (rest : List Char) :
    Nat.toDigits 10 n ≠ '0' :: rest := by
  induction n using Nat.strongRecOn generalizing rest with
  | ind n ih =>
    rw [Nat.toDigits_eq_if (by decide)]
    split
    · rename_i hlt
      have hdigit : ∀ d < 10, 0 < d → Nat.digitChar d ≠ '0' := by decide
      simp [hdigit n hlt h]
    · rename_i hge
      -- The first digit is that of a tenth.
      have htenth : 0 < n / 10 := by omega
      obtain ⟨first, more, hdigits, _⟩ := exists_first_digit (n / 10)
      intro heq
      rw [hdigits, List.cons_append, List.cons.injEq] at heq
      rw [heq.1] at hdigits
      exact ih (n / 10) (Nat.div_lt_self h (by decide)) htenth more hdigits

section Digits

variable {rest : List Char} (hstops : Stops rest)
include hstops

/-- Digits are taken as long as there are any. -/
theorem scanDigits_digits {digits : List Char} (h : ∀ c ∈ digits, c.isDigit = true) :
    scanDigits (digits ++ rest) = (digits.map fun c => c.toNat - '0'.toNat, rest) := by
  have hrest : rest.takeWhile Char.isDigit = [] ∧ rest.dropWhile Char.isDigit = rest := by
    cases rest with
    | nil => exact ⟨rfl, rfl⟩
    | cons c rest =>
      have hc : ¬ c.isDigit = true := by
        rcases hstops c rfl with rfl | rfl
        · decide
        · decide
      exact ⟨List.takeWhile_cons_of_neg hc, List.dropWhile_cons_of_neg hc⟩
  unfold scanDigits
  rw [List.span_eq_takeWhile_dropWhile, List.takeWhile_append_of_pos h,
    List.dropWhile_append_of_pos h, hrest.1, hrest.2, List.append_nil]

/-- The digits of a natural are scanned as a whole number, for only zero starts
with a nought. -/
theorem scanWhole_toDigits (n : Nat) :
    scanWhole (Nat.toDigits 10 n ++ rest) = some (digitsOf n, rest) := by
  have hdigits : ∀ c ∈ Nat.toDigits 10 n, c.isDigit = true :=
    fun c hc => Nat.isDigit_of_mem_toDigits (by decide) (by decide) hc
  by_cases hzero : n = 0
  · subst hzero
    rfl
  · rw [scanWhole, scanDigits_digits hstops hdigits]
    · show (if (digitsOf n).isEmpty = true then none else some (digitsOf n, rest)) = _
      rw [if_neg]
      rw [List.isEmpty_iff]
      exact fun hnil => Nat.toDigits_ne_nil (List.map_eq_nil_iff.1 hnil)
    · intro others heq
      obtain ⟨first, more, hfirst, _⟩ := exists_first_digit n
      rw [hfirst, List.cons_append, List.cons.injEq] at heq
      rw [heq.1] at hfirst
      exact toDigits_ne_zero_cons (Nat.pos_of_ne_zero hzero) more hfirst

/-- There is no fraction where the number ends. -/
theorem scanFraction_stops : scanFraction rest = some (none, rest) := by
  rw [scanFraction]
  rintro others rfl
  rcases hstops '.' rfl with h | h
  · cases h
  · cases h

/-- There is no exponent where the number ends. -/
theorem scanExponent_stops : scanExponent rest = some (none, rest) := by
  cases rest with
  | nil => rfl
  | cons c rest =>
    show (if c = 'e' ∨ c = 'E' then _ else some (none, c :: rest)) = _
    rw [if_neg]
    rcases hstops c rfl with rfl | rfl
    · decide
    · decide

/-- A printed number is scanned as its sign and its digits. -/
theorem scanMagnitude_toDigits (negative : Bool) (n : Nat) :
    scanMagnitude negative (Nat.toDigits 10 n ++ rest)
      = some (⟨negative, digitsOf n, none, none⟩, rest) := by
  unfold scanMagnitude
  rw [scanWhole_toDigits hstops]
  show (scanFraction rest).bind _ = _
  rw [scanFraction_stops hstops]
  show (scanExponent rest).bind _ = _
  rw [scanExponent_stops hstops]
  rfl

/-- **An integer is scanned as its digits.** -/
theorem scanNumber_text (n : Int) :
    scanNumber ((Number.text (.integer n)).toList ++ rest) = some (literalOf n, rest) := by
  cases n with
  | ofNat n =>
    show scanNumber ((Nat.repr n).toList ++ rest) = _
    rw [Nat.toList_repr, scanNumber]
    · exact scanMagnitude_toDigits hstops false n
    · intro others heq
      obtain ⟨first, more, hdigits, hfirst⟩ := exists_first_digit n
      rw [hdigits, List.cons_append, List.cons.injEq] at heq
      rw [heq.1] at hfirst
      cases hfirst
  | negSucc n =>
    show scanNumber (("-" ++ Nat.repr (n + 1)).toList ++ rest) = _
    rw [String.toList_append, Nat.toList_repr]
    exact scanMagnitude_toDigits hstops true (n + 1)

end Digits

/-! ## §4. Lines. -/

/-- The marks that close containers. -/
def Closes (c : Char) : Prop := c = ']' ∨ c = '\x7d'

theorem Closes.not_blank {c : Char} (h : Closes c) : isBlank c = false := by
  rcases h with rfl | rfl
  · decide
  · decide

theorem Closes.ne_comma {c : Char} (h : Closes c) : c ≠ ',' := by
  rcases h with rfl | rfl
  · decide
  · decide

/-- A text starts with a character that is no blank and closes no container. -/
def Starts (text : List Char) : Prop :=
  ∃ c rest, text = c :: rest ∧ isBlank c = false ∧ ¬ Closes c

/-- A line starts with a character that counts, so nothing is skipped. -/
theorem skipBlanks_starts {text : List Char} (h : Starts text) (rest : List Char) :
    skipBlanks (text ++ rest) = text ++ rest := by
  obtain ⟨c, others, rfl, hblank, _⟩ := h
  exact skipBlanks_of_not_blank hblank _

/-- A text is scanned as an element, and nothing of what follows it. -/
structure Scans {α : Type} (element : List Char → Option (α × List Char)) (text : List Char)
    (x : α) : Prop where
  starts : Starts text
  scan : ∀ rest, Stops rest → element (text ++ rest) = some (x, rest)

/-- The lines between the marks of a container, and what closes it. -/
def blockTail (width : Nat) (lines : List (List Char)) (close : List Char) : List Char :=
  '\n' :: ([',', '\n'].intercalate (lines.map (List.replicate width ' ' ++ ·)) ++ close)

theorem blockTail_single (width : Nat) (line close : List Char) :
    blockTail width [line] close = '\n' :: (List.replicate width ' ' ++ (line ++ close)) := by
  unfold blockTail
  rw [List.map_singleton, List.intercalate_singleton, List.append_assoc]

/-- The lines of a block are separated by commas. -/
theorem blockTail_cons (width : Nat) (line next : List Char) (lines : List (List Char))
    (close : List Char) :
    blockTail width (line :: next :: lines) close
      = '\n' :: (List.replicate width ' '
          ++ (line ++ ',' :: blockTail width (next :: lines) close)) := by
  unfold blockTail
  rw [List.map_cons, List.map_cons, List.intercalate_cons_cons]
  simp

/-- The last line of a container. -/
def closing (width : Nat) (close : Char) (rest : List Char) : List Char :=
  '\n' :: (List.replicate width ' ' ++ close :: rest)

section Lines

variable {α : Type} {element : List Char → Option (α × List Char)} {close : Char}
  (hclose : Closes close)
include hclose

/-- The last element is followed by the closing mark. -/
theorem scanElements_last {text more rest : List Char} {x : α}
    (h : element (skipBlanks text) = some (x, more)) (hmore : skipBlanks more = close :: rest)
    (bound : Nat) : scanElements element close (bound + 1) text = some ([x], rest) := by
  rw [scanElements, h]
  simp only [Option.bind_eq_bind, Option.bind_some, hmore]
  split
  · rename_i heq
    exact absurd (List.cons.inj heq).1 hclose.ne_comma
  · rename_i heq
    obtain ⟨rfl, rfl⟩ := List.cons.inj heq
    rw [if_pos rfl]
  · rename_i heq
    cases heq

omit hclose in

/-- An element in front of others is followed by a comma. -/
theorem scanElements_more {text more next rest : List Char} {x : α} {xs : List α} {bound : Nat}
    (h : element (skipBlanks text) = some (x, more)) (hmore : skipBlanks more = ',' :: next)
    (hnext : scanElements element close bound next = some (xs, rest)) :
    scanElements element close (bound + 1) text = some (x :: xs, rest) := by
  rw [scanElements, h]
  simp only [Option.bind_eq_bind, Option.bind_some, hmore, hnext]
  rfl

/-- **The lines of a container are scanned one after the other.** -/
theorem scanElements_lines {lines : List (List Char)} {elements : List α}
    (h : List.Forall₂ (Scans element) lines elements) (hlines : lines ≠ []) {bound : Nat}
    (hbound : lines.length ≤ bound) (inner outer : Nat) (rest : List Char) :
    scanElements element close bound (blockTail inner lines (closing outer close rest))
      = some (elements, rest) := by
  induction h generalizing bound with
  | nil => exact absurd rfl hlines
  | @cons line x others xs hline hothers ih =>
    obtain ⟨bound, rfl⟩ : ∃ less, bound = less + 1 := ⟨bound - 1, by simp at hbound; omega⟩
    cases hothers with
    | nil =>
      have hstops : Stops (closing outer close rest) := fun c hc => .inr (Option.some.inj hc).symm
      have hend : skipBlanks (closing outer close rest) = close :: rest := by
        rw [closing, skipBlanks_line, skipBlanks_of_not_blank hclose.not_blank]
      refine scanElements_last hclose ?_ hend bound
      rw [blockTail_single, skipBlanks_line, skipBlanks_starts hline.starts, hline.scan _ hstops]
    | @cons next y others ys hnext hrest =>
      have hstops : Stops (',' :: blockTail inner (next :: others) (closing outer close rest)) :=
        fun c hc => .inl (Option.some.inj hc).symm
      refine scanElements_more ?_ (skipBlanks_of_not_blank (by decide) _)
        (ih (List.cons_ne_nil _ _) (by simp at hbound ⊢; omega))
      rw [blockTail_cons, skipBlanks_line, skipBlanks_starts hline.starts, hline.scan _ hstops]

/-- What a container holds after its opening mark. -/
def blockBody (level : Nat) (lines : List (List Char)) (close : Char) (rest : List Char) :
    List Char :=
  if lines = [] then close :: rest
  else blockTail (4 * (level + 1)) lines (closing (4 * level) close rest)

/-- **A container is scanned as its elements.** -/
theorem scanContainer_body {lines : List (List Char)} {elements : List α}
    (h : List.Forall₂ (Scans element) lines elements) {bound : Nat}
    (hbound : lines.length ≤ bound) (level : Nat) (rest : List Char) :
    scanContainer element close bound (blockBody level lines close rest) = some (elements, rest) := by
  unfold blockBody scanContainer
  cases h with
  | nil =>
    rw [if_pos rfl, skipBlanks_of_not_blank hclose.not_blank]
    simp
  | @cons line x others xs hline hothers =>
    -- The first line starts with another mark, so the container is not empty.
    have hfirst : ∃ c more, skipBlanks (blockTail (4 * (level + 1)) (line :: others)
        (closing (4 * level) close rest)) = c :: more ∧ c ≠ close := by
      obtain ⟨c, more, hc, _, hmark⟩ := id hline.starts
      have hne : c ≠ close := fun heq => hmark (heq ▸ hclose)
      cases others with
      | nil =>
        rw [blockTail_single, skipBlanks_line, skipBlanks_starts hline.starts, hc]
        exact ⟨c, _, rfl, hne⟩
      | cons next others =>
        rw [blockTail_cons, skipBlanks_line, skipBlanks_starts hline.starts, hc]
        exact ⟨c, _, rfl, hne⟩
    obtain ⟨c, more, hskip, hne⟩ := hfirst
    rw [if_neg (List.cons_ne_nil _ _), hskip]
    simp only [if_neg hne]
    exact scanElements_lines hclose (.cons hline hothers) (List.cons_ne_nil _ _) hbound _ _ rest

end Lines

/-- A printed block, character by character. -/
theorem toList_block {opening mark : String} {close : Char} (hmark : mark.toList = [close])
    (level : Nat) (lines : List String) (rest : List Char) :
    (block opening mark level lines).toList ++ rest
      = opening.toList ++ blockBody level (lines.map String.toList) close rest := by
  unfold block blockBody
  cases lines with
  | nil => simp [hmark]
  | cons line lines =>
    have hlines : ((line :: lines).map (indent (level + 1) ++ ·)).map String.toList
        = ((line :: lines).map String.toList).map (List.replicate (4 * (level + 1)) ' ' ++ ·) := by
      simp [indent]
    rw [if_neg (by simp), if_neg (by simp)]
    simp only [String.toList_append, String.toList_intercalate, hlines, hmark]
    simp [blockTail, closing, indent]

end FilmCatalog.Json
