/-
  FilmCatalog.Address.Host
  ────────────────────────
  **HOSTS OF WEB ADDRESSES.**

  Under a well-known scheme a host is a name, four numbers or, in brackets,
  eight groups of hexadecimal digits.  Each has one written form: names are
  in lower case, four numbers are decimal, and in groups the longest run of
  zeros is left out.  Under any other scheme a host without brackets is kept
  as it is written.  Names are ASCII.
-/
import FilmCatalog.Address.Percent
import FilmCatalog.Text.Parts

namespace FilmCatalog.Address

/-! ## §1. Four numbers. -/

/-- The digits of a number in some base, read from left to right. -/
def readBase (base : Nat) (digits : List Char) : Option Nat :=
  digits.foldl (fun n c => do
    let n ← n
    let digit ← hexValue? c
    if digit < base then some (n * base + digit) else none) (some 0)

/-- A number that is decimal, octal after a zero, or hexadecimal after
`0x`. -/
def readNumber? : List Char → Option Nat
  | [] => none
  | ['0'] => some 0
  | '0' :: c :: rest =>
      if c = 'x' ∨ c = 'X' then readBase 16 rest else readBase 8 (c :: rest)
  | digits => readBase 10 digits

/-- Whether the last part of a name, not counting an empty one at the end,
makes it a host of numbers. -/
def endsInNumber (parts : List (List Char)) : Bool :=
  let last := match parts.reverse with
    | [] :: last :: _ => last
    | [[]] => []
    | last :: _ => last
    | [] => []
  (!last.isEmpty && last.all Char.isDigit) || (readNumber? last).isSome

/-- The number that four parts stand for: the last one fills all that the
parts before it leave. -/
def combineNumbers? (numbers : List Nat) : Option Nat :=
  match numbers.reverse with
  | [] => none
  | last :: others =>
      let count := others.length
      if 3 < count then none
      else if Nat.pow 256 (4 - count) ≤ last then none
      else if others.any (255 < ·) then none
      else
        let leading := others.reverse.foldl (fun n part => 256 * n + part) 0
        some (leading * Nat.pow 256 (4 - count) + last)

/-- The four numbers in decimal. -/
def dotted (n : Nat) : String :=
  ".".intercalate
    ([n / 16777216 % 256, n / 65536 % 256, n / 256 % 256, n % 256].map Nat.repr)

/-- A host of numbers in its written form. -/
def readDotted? (parts : List (List Char)) : Option String := do
  let parts := match parts.reverse with
    | [] :: others => others.reverse
    | _ => parts
  let numbers ← parts.mapM readNumber?
  let n ← combineNumbers? numbers
  return dotted n

/-! ## §2. Eight groups. -/

/-- A group of one to four hexadecimal digits. -/
def readGroup? (digits : List Char) : Option Nat :=
  if digits.isEmpty ∨ 4 < digits.length then none else readBase 16 digits

/-- A number up to 255 without needless zeros. -/
def readByte? (digits : List Char) : Option Nat :=
  match digits with
  | [] => none
  | c :: rest =>
      if c = '0' ∧ rest ≠ [] then none
      else (readBase 10 digits).bind fun n => if n ≤ 255 then some n else none

/-- Four decimal numbers in place of the last two groups. -/
def readTail? (text : List Char) : Option (List Nat) :=
  match (Text.splitAll '.' text).mapM readByte? with
  | some [a, b, c, d] => some [a * 256 + b, c * 256 + d]
  | _ => none

/-- Groups with colons between them; the last may be four numbers. -/
def readGroups? : List (List Char) → Option (List Nat)
  | [] => some []
  | [last] => if last.contains '.' then readTail? last else (readGroup? last).map ([·])
  | first :: rest => do
      let first ← readGroup? first
      let rest ← readGroups? rest
      return first :: rest

/-- Groups with colons between them, without four numbers at the end. -/
def readPlainGroups? (groups : List (List Char)) : Option (List Nat) := groups.mapM readGroup?

/-- The parts before and after the first double colon. -/
def splitDoubleColon : List Char → Option (List Char × List Char)
  | ':' :: ':' :: rest => some ([], rest)
  | c :: rest => (splitDoubleColon rest).map fun (before, after) => (c :: before, after)
  | [] => none

/-- The groups of one side of a double colon. -/
def sideGroups (side : List Char) : List (List Char) :=
  if side.isEmpty then [] else Text.splitAll ':' side

/-- The eight groups of a text between brackets; a double colon stands for at
least one group of zeros. -/
def readEight? (text : List Char) : Option (List Nat) :=
  match splitDoubleColon text with
  | some (before, after) => do
      let before ← readPlainGroups? (sideGroups before)
      let after ← readGroups? (sideGroups after)
      let known := before.length + after.length
      if known ≤ 7 then some (before ++ List.replicate (8 - known) 0 ++ after) else none
  | none => do
      let groups ← readGroups? (Text.splitAll ':' text)
      if groups.length = 8 then some groups else none

/-- The number of zeros at the start. -/
def zeroRun (groups : List Nat) : Nat := (groups.takeWhile (· = 0)).length

/-- Where the first longest run of zeros starts, and its length. -/
def longestZeros (groups : List Nat) : Nat × Nat :=
  (List.range groups.length).foldl
    (fun best index =>
      let run := zeroRun (groups.drop index)
      if best.2 < run then (index, run) else best)
    (0, 0)

/-- Groups in hexadecimal, with colons between them. -/
def joinGroups (groups : List Nat) : String :=
  ":".intercalate (groups.map fun n => String.ofList (Nat.toDigits 16 n))

/-- Eight groups in their written form. -/
def bracketed (groups : List Nat) : String :=
  let (start, length) := longestZeros groups
  if length < 2 then "[" ++ joinGroups groups ++ "]"
  else "[" ++ joinGroups (groups.take start) ++ "::" ++ joinGroups (groups.drop (start + length))
    ++ "]"

/-! ## §3. Hosts. -/

/-- What no name may hold. -/
def forbiddenInName (c : Char) : Bool :=
  isControl c || c = ' ' || "%#/:<>?@[\\]^|".toList.contains c

/-- What no host may hold that is kept as it is written. -/
def forbiddenInOpaque (c : Char) : Bool :=
  c.toNat = 0 || "\t\n\r #/:<>?@[\\]^|".toList.contains c

/-- A host in brackets. -/
def readBracketed? (text : List Char) : Option String :=
  match text.reverse with
  | ']' :: inner => (readEight? inner.reverse).map bracketed
  | _ => none

/-- A host of a well-known scheme, in its written form. -/
def readHost? : List Char → Option String
  | '[' :: rest => readBracketed? rest
  | text =>
      let name := (percentDecode text).map Char.ofNat
      if name.isEmpty || name.any forbiddenInName then none
      else
        let name := name.map Char.toLower
        let parts := Text.splitAll '.' name
        if endsInNumber parts then readDotted? parts else some (String.ofList name)

/-- A host of any other scheme, in its written form; it may be empty. -/
def readOpaqueHost? : List Char → Option String
  | '[' :: rest => readBracketed? rest
  | text =>
      if text.any forbiddenInOpaque then none
      else some (String.ofList (percentEncode isControl text))

end FilmCatalog.Address
