/-
  FilmCatalog.Text.Parts
  ──────────────────────
  **CUTTING TEXT.**

  Language tags, references, paths and addresses are all cut at single
  characters.  Each cut is a recursion on the characters, so that what it
  keeps and what it drops can be read off the definition.
-/

namespace FilmCatalog.Text

/-! ## §1. Cuts of character lists. -/

/-- The parts before and after the first `mark`, if there is one. -/
def splitFirst (mark : Char) : List Char → Option (List Char × List Char)
  | [] => none
  | c :: rest =>
      if c = mark then some ([], rest)
      else (splitFirst mark rest).map fun (before, after) => (c :: before, after)

/-- The parts before and after the last `mark`, if there is one. -/
def splitLast (mark : Char) : List Char → Option (List Char × List Char)
  | [] => none
  | c :: rest =>
      match splitLast mark rest with
      | some (before, after) => some (c :: before, after)
      | none => if c = mark then some ([], rest) else none

/-- The parts between the `mark`s; there is one more of them than there are
marks. -/
def splitAll (mark : Char) : List Char → List (List Char)
  | [] => [[]]
  | c :: rest =>
      if c = mark then [] :: splitAll mark rest
      else
        match splitAll mark rest with
        | [] => [[c]]
        | part :: parts => (c :: part) :: parts

/-- The longest common start of two character lists. -/
def commonStart : List Char → List Char → List Char
  | a :: as, b :: bs => if a = b then a :: commonStart as bs else []
  | _, _ => []

/-- What follows `start` in a list that begins with it. -/
def dropStart? : List Char → List Char → Option (List Char)
  | [], text => some text
  | a :: as, b :: bs => if a = b then dropStart? as bs else none
  | _ :: _, [] => none

/-- Whether `needle` occurs in the list as a block. -/
def hasBlock (needle : List Char) : List Char → Bool
  | [] => needle.isEmpty
  | c :: rest => needle.isPrefixOf (c :: rest) || hasBlock needle rest

/-! ## §2. The same cuts on strings. -/

/-- Text before and after the first `mark`. -/
def cutFirst (mark : Char) (text : String) : Option (String × String) :=
  (splitFirst mark text.toList).map fun (before, after) =>
    (String.ofList before, String.ofList after)

/-- Text before and after the last `mark`. -/
def cutLast (mark : Char) (text : String) : Option (String × String) :=
  (splitLast mark text.toList).map fun (before, after) =>
    (String.ofList before, String.ofList after)

/-- The pieces of a text between the `mark`s. -/
def pieces (mark : Char) (text : String) : List String :=
  (splitAll mark text.toList).map String.ofList

/-- What follows `start` in a text that begins with it. -/
def afterStart? (start text : String) : Option String :=
  (dropStart? start.toList text.toList).map String.ofList

/-- Whether `needle` occurs somewhere in `text`. -/
def contains (text needle : String) : Bool :=
  hasBlock needle.toList text.toList

/-- A natural number with at least two digits. -/
def twoDigits (n : Nat) : String :=
  if n < 10 then "0" ++ Nat.repr n else Nat.repr n

end FilmCatalog.Text
