/-
  FilmCatalog.Json.Reader
  ───────────────────────
  **READING JSON TEXT.**

  Reading has two stages.  `Tree.scan?` holds a text against the grammar and
  keeps it as it is written: fields in their order and with repetitions,
  numbers as they are spelled, `\u` escapes as code units.  `Tree.value?`
  gives the value of a tree, or refuses it because

      * containers are nested more than `nestingLimit` deep,
      * a number is out of range, or
      * an escape names half of a surrogate pair.

  Callers that look at only a part of a text work on the tree.
-/
import FilmCatalog.Json.Basic

namespace FilmCatalog.Json

/-! ## §1. Texts as written. -/

/-- One character of a string literal. -/
inductive Piece where
  /-- A character, plain or by a short escape. -/
  | char (c : Char)
  /-- A code unit, by a `\u` escape. -/
  | unit (code : Nat)
  deriving DecidableEq, Repr

/-- A JSON text as it is written. -/
inductive Tree where
  | null
  | bool (value : Bool)
  | number (literal : Literal)
  | string (pieces : List Piece)
  | array (items : List Tree)
  | object (fields : List (List Piece × Tree))
  deriving Repr

/-! ## §2. Scanning scalars. -/

/-- The blanks of the grammar. -/
def isBlank (c : Char) : Bool := c = ' ' || c = '\t' || c = '\n' || c = '\r'

/-- The text after its leading blanks. -/
def skipBlanks (text : List Char) : List Char := text.dropWhile isBlank

/-- The value of a hexadecimal digit. -/
def hexDigit? (c : Char) : Option Nat :=
  if '0' ≤ c ∧ c ≤ '9' then some (c.toNat - '0'.toNat)
  else if 'a' ≤ c ∧ c ≤ 'f' then some (c.toNat - 'a'.toNat + 10)
  else if 'A' ≤ c ∧ c ≤ 'F' then some (c.toNat - 'A'.toNat + 10)
  else none

/-- The code unit that four hexadecimal digits spell. -/
def codeUnit? (a b c d : Char) : Option Nat := do
  let a ← hexDigit? a
  let b ← hexDigit? b
  let c ← hexDigit? c
  let d ← hexDigit? d
  return ((a * 16 + b) * 16 + c) * 16 + d

/-- The character of a short escape. -/
def shortEscape? : Char → Option Char
  | '"' => some '"'
  | '\\' => some '\\'
  | '/' => some '/'
  | 'b' => some '\x08'
  | 'f' => some '\x0c'
  | 'n' => some '\n'
  | 'r' => some '\r'
  | 't' => some '\t'
  | _ => none

/-- The rest of a string literal, after its opening quote. -/
def scanString : List Char → Option (List Piece × List Char)
  | [] => none
  | '"' :: rest => some ([], rest)
  | '\\' :: 'u' :: a :: b :: c :: d :: rest => do
      let code ← codeUnit? a b c d
      let (pieces, rest) ← scanString rest
      return (.unit code :: pieces, rest)
  | '\\' :: c :: rest => do
      let c ← shortEscape? c
      let (pieces, rest) ← scanString rest
      return (.char c :: pieces, rest)
  | c :: rest =>
      if c = '\\' ∨ c.toNat < 0x20 then none
      else do
        let (pieces, rest) ← scanString rest
        return (.char c :: pieces, rest)

/-- The decimal digits at the start of a text. -/
def scanDigits (text : List Char) : List Nat × List Char :=
  let (digits, rest) := text.span Char.isDigit
  (digits.map fun c => c.toNat - '0'.toNat, rest)

/-- The digits before the point: a lone zero, or digits that start with
another one. -/
def scanWhole : List Char → Option (List Nat × List Char)
  | '0' :: rest => some ([0], rest)
  | text =>
      let (digits, rest) := scanDigits text
      if digits.isEmpty then none else some (digits, rest)

/-- The digits behind the point, if there is a point. -/
def scanFraction : List Char → Option (Option (List Nat) × List Char)
  | '.' :: rest =>
      let (digits, rest) := scanDigits rest
      if digits.isEmpty then none else some (some digits, rest)
  | text => some (none, text)

/-- The digits of an exponent, after its sign. -/
def scanExponentDigits (negative : Bool) (text : List Char) :
    Option (Option Int × List Char) :=
  let (digits, rest) := scanDigits text
  let size : Int := ofDigits digits
  if digits.isEmpty then none else some (some (if negative then -size else size), rest)

/-- The exponent, if there is one. -/
def scanExponent : List Char → Option (Option Int × List Char)
  | c :: rest =>
      if c = 'e' ∨ c = 'E' then
        match rest with
        | '+' :: rest => scanExponentDigits false rest
        | '-' :: rest => scanExponentDigits true rest
        | rest => scanExponentDigits false rest
      else some (none, c :: rest)
  | [] => some (none, [])

/-- A number, after its sign. -/
def scanMagnitude (negative : Bool) (text : List Char) : Option (Literal × List Char) := do
  let (whole, text) ← scanWhole text
  let (fraction, text) ← scanFraction text
  let (exponent, text) ← scanExponent text
  return ({ negative, whole, fraction, exponent }, text)

/-- A number. -/
def scanNumber : List Char → Option (Literal × List Char)
  | '-' :: rest => scanMagnitude true rest
  | text => scanMagnitude false text

/-! ## §3. Scanning containers. -/

/-- Elements with commas between them, up to the closing mark, at most `bound`
of them. -/
def scanElements {α : Type} (element : List Char → Option (α × List Char)) (close : Char) :
    Nat → List Char → Option (List α × List Char)
  | 0, _ => none
  | bound + 1, text => do
      let (first, text) ← element (skipBlanks text)
      match skipBlanks text with
      | ',' :: text =>
          let (others, text) ← scanElements element close bound text
          return (first :: others, text)
      | c :: text => if c = close then some ([first], text) else none
      | [] => none

/-- The elements of a container, after its opening mark. -/
def scanContainer {α : Type} (element : List Char → Option (α × List Char)) (close : Char)
    (bound : Nat) (text : List Char) : Option (List α × List Char) :=
  match skipBlanks text with
  | [] => none
  | c :: rest => if c = close then some ([], rest) else scanElements element close bound text

/-- A key and its value. -/
def scanField {α : Type} (value : List Char → Option (α × List Char)) :
    List Char → Option ((List Piece × α) × List Char)
  | '"' :: text => do
      let (key, text) ← scanString text
      match skipBlanks text with
      | ':' :: text =>
          let (value, text) ← value (skipBlanks text)
          return ((key, value), text)
      | _ => none
  | _ => none

/-- One value, nested less than `depth` deep, whose containers have at most
`bound` elements. -/
def scanValue (bound : Nat) : Nat → List Char → Option (Tree × List Char)
  | 0, _ => none
  | depth + 1, text =>
      match text with
      | 'n' :: 'u' :: 'l' :: 'l' :: rest => some (.null, rest)
      | 't' :: 'r' :: 'u' :: 'e' :: rest => some (.bool true, rest)
      | 'f' :: 'a' :: 'l' :: 's' :: 'e' :: rest => some (.bool false, rest)
      | '"' :: rest => (scanString rest).map fun (pieces, rest) => (.string pieces, rest)
      | '[' :: rest =>
          (scanContainer (scanValue bound depth) ']' bound rest).map fun (items, rest) =>
            (.array items, rest)
      | '\x7b' :: rest =>
          (scanContainer (scanField (scanValue bound depth)) '\x7d' bound rest).map
            fun (fields, rest) => (.object fields, rest)
      | text => (scanNumber text).map fun (literal, rest) => (.number literal, rest)

/-- A whole text: one value with blanks around it.  Containers and elements take
at least one character each, so the length of the text bounds both. -/
def Tree.scan? (text : String) : Option Tree :=
  match scanValue text.length (text.length + 1) (skipBlanks text.toList) with
  | some (tree, rest) => if (skipBlanks rest).isEmpty then some tree else none
  | none => none

/-! ## §4. Values. -/

/-- The text of a string literal; `none` if half of a surrogate pair stands
alone. -/
def decodePieces : List Piece → Option (List Char)
  | [] => some []
  | .char c :: rest => (decodePieces rest).map (c :: ·)
  | .unit high :: .unit low :: rest =>
      if 0xd800 ≤ high ∧ high < 0xdc00 then
        if 0xdc00 ≤ low ∧ low < 0xe000 then
          (decodePieces rest).map
            (Char.ofNat (0x10000 + (high - 0xd800) * 0x400 + (low - 0xdc00)) :: ·)
        else none
      else if 0xdc00 ≤ high ∧ high < 0xe000 then none
      else (decodePieces (.unit low :: rest)).map (Char.ofNat high :: ·)
  | .unit code :: rest =>
      if 0xd800 ≤ code ∧ code < 0xe000 then none
      else (decodePieces rest).map (Char.ofNat code :: ·)

/-- The text of a string literal. -/
def pieceText? (pieces : List Piece) : Option String :=
  (decodePieces pieces).map String.ofList

/-- How many containers may be nested. -/
def nestingLimit : Nat := 127

/-- The value of a tree with at most `depth` nested containers. -/
def Tree.valueWithin? : Nat → Tree → Option Json
  | _, .null => some .null
  | _, .bool value => some (.bool value)
  | _, .number literal => literal.value?.map .number
  | _, .string pieces => (pieceText? pieces).map .string
  | 0, .array _ => none
  | 0, .object _ => none
  | depth + 1, .array items => (items.mapM (valueWithin? depth)).map .array
  | depth + 1, .object fields =>
      (fields.mapM fun (field : List Piece × Tree) => do
        let key ← pieceText? field.1
        let value ← valueWithin? depth field.2
        return (key, value)).map ofFields

/-- The value of a tree. -/
def Tree.value? (tree : Tree) : Option Json := tree.valueWithin? nestingLimit

/-- The value of a JSON text. -/
def read? (text : String) : Option Json := (Tree.scan? text).bind Tree.value?

end FilmCatalog.Json
