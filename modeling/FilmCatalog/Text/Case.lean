/-
  FilmCatalog.Text.Case
  ─────────────────────
  **FULL CASE MAPPINGS.**

  Lower and upper case of whole texts.  A character may become several, and
  a capital sigma at the end of a word becomes a final sigma: one that
  follows a cased character and is not followed by one, characters that do
  not count for case passed over.
-/
import FilmCatalog.Text.CaseTable

namespace FilmCatalog.Text

/-! ## §1. Table lookup. -/

/-- Whether a code point lies in one of some ranges. -/
def inRanges (ranges : List (Nat × Nat)) (code : Nat) : Bool :=
  ranges.any fun range => range.1 ≤ code && code ≤ range.2

/-- The partner of a code point in a list of ranges. -/
def partner? (ranges : List CaseRange) (code : Nat) : Option Nat :=
  (ranges.find? fun range =>
    range.first ≤ code && code ≤ range.last && (code - range.first) % range.step = 0).map
      fun range => ((code : Int) + range.delta).toNat

/-- The other case of a character. -/
def mapChar (sequences : List (Nat × List Nat)) (ranges : List CaseRange) (c : Char) : List Char :=
  match sequences.lookup c.toNat with
  | some codes => codes.map Char.ofNat
  | none => [((partner? ranges c.toNat).map Char.ofNat).getD c]

/-- The lower case of a character on its own. -/
def lowerChar (c : Char) : List Char := mapChar lowerSequences lowerRanges c

/-- The upper case of a character. -/
def upperChar (c : Char) : List Char := mapChar upperSequences upperRanges c

/-- Whether a character is cased. -/
def isCased (c : Char) : Bool := inRanges casedRanges c.toNat

/-- Whether a character is passed over around a sigma. -/
def isCaseIgnorable (c : Char) : Bool := inRanges caseIgnorableRanges c.toNat

/-! ## §2. Texts. -/

/-- Whether the first character that counts for case is cased. -/
def nextIsCased (text : List Char) : Bool :=
  match text.dropWhile isCaseIgnorable with
  | c :: _ => isCased c
  | [] => false

/-- The lower case of a capital sigma, by what stands before it, in reverse
order, and after it. -/
def lowerSigma (before after : List Char) : Char :=
  if nextIsCased before && !nextIsCased after then 'ς' else 'σ'

/-- The lower case of a text after what stands before it in reverse order. -/
def lowerAfter (before : List Char) : List Char → List Char
  | [] => []
  | c :: rest =>
      (if c = 'Σ' then [lowerSigma before rest] else lowerChar c) ++ lowerAfter (c :: before) rest

/-- The lower case of a text. -/
def lower (text : String) : String := String.ofList (lowerAfter [] text.toList)

/-- The text with its first character in upper case. -/
def capitalize (text : String) : String :=
  match text.toList with
  | [] => ""
  | c :: rest => String.ofList (upperChar c ++ rest)

end FilmCatalog.Text
