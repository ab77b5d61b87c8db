/-
  FilmCatalog.Json.Number
  ───────────────────────
  **NUMBERS OF A JSON TEXT.**

  A number that is spelled without a fraction and without an exponent, and
  that fits 64 bits with or without sign, is an integer.  Every other
  spelling, `-0` among them, is a binary64 number, even if its value is
  whole.

  The value of such a spelling is computed from a significand of as many
  leading digits as fit 64 bits; the digits after those count for the
  exponent if they stand before the point and are dropped if they stand
  behind it.
-/
import FilmCatalog.Number.Shortest

namespace FilmCatalog.Json

/-! ## §1. Values. -/

/-- The value of a number. -/
inductive Number where
  /-- A whole number, spelled as one. -/
  | integer (value : Int)
  /-- Any other number, with its sign apart. -/
  | float (negative : Bool) (magnitude : Binary64)
  deriving DecidableEq, Repr

/-- The largest natural of 64 bits. -/
def maxWord : Nat := 18446744073709551615

/-! ## §2. Spellings. -/

/-- A number as it is spelled. -/
structure Literal where
  negative : Bool
  /-- The digits before the point, without needless zeros. -/
  whole : List Nat
  /-- The digits behind the point. -/
  fraction : Option (List Nat)
  /-- The exponent, with its sign. -/
  exponent : Option Int
  deriving DecidableEq, Repr

/-- The natural that a list of digits spells. -/
def ofDigits (digits : List Nat) : Nat :=
  digits.foldl (fun n digit => 10 * n + digit) 0

/-- Extends a significand by digits while it fits 64 bits; gives the digits
that were not taken as well. -/
def extendSignificand (significand : Nat) : List Nat → Nat × List Nat
  | [] => (significand, [])
  | digit :: rest =>
      let next := 10 * significand + digit
      if maxWord < next then (significand, digit :: rest)
      else extendSignificand next rest

/-- The magnitude of a spelling as a binary64 number; `none` if it is too
large for one. -/
def Literal.magnitude? (l : Literal) : Option Binary64 :=
  let (significand, dropped) := extendSignificand 0 l.whole
  let fraction := l.fraction.getD []
  let (significand, ignored) := extendSignificand significand fraction
  let places := fraction.length - ignored.length
  Binary64.ofDecimal? significand
    ((dropped.length : Int) - (places : Int) + l.exponent.getD 0)

/-- The value of a spelling; `none` if it is out of range. -/
def Literal.value? (l : Literal) : Option Number :=
  let n := ofDigits l.whole
  let isWhole := l.fraction.isNone && l.exponent.isNone
  if isWhole && !l.negative && n ≤ maxWord then
    some (.integer n)
  else if isWhole && l.negative && 0 < n && n ≤ 9223372036854775808 then
    some (.integer (-n))
  else
    l.magnitude?.map (.float l.negative)

/-! ## §3. Text. -/

/-- Where the text of a binary64 number changes from positional notation to
an exponent. -/
structure DecimalStyle where
  /-- The least exponent of the leading digit that is written out. -/
  least : Int
  /-- The greatest one. -/
  greatest : Int

/-- Numbers from `0.00001` up to sixteen digits before the point are written
out. -/
def decimalStyle : DecimalStyle := ⟨-5, 15⟩

/-- The text of a decimal: positional, with at least one digit on each side
of the point, or with a signed exponent. -/
def DecimalStyle.text (style : DecimalStyle) (d : Decimal) : String :=
  let digits := (Nat.repr d.digits).toList
  let lead := d.exponent + digits.length - 1
  if style.least ≤ lead ∧ lead ≤ style.greatest then
    if lead < 0 then
      String.ofList ('0' :: '.' :: List.replicate (lead.natAbs - 1) '0' ++ digits)
    else
      let whole := digits.take (lead.toNat + 1)
      let padding := List.replicate (lead.toNat + 1 - digits.length) '0'
      let fraction := digits.drop (lead.toNat + 1)
      String.ofList (whole ++ padding ++ '.' :: if fraction.isEmpty then ['0'] else fraction)
  else
    let mantissa := match digits with
      | [] => []
      | [digit] => [digit]
      | digit :: rest => digit :: '.' :: rest
    let sign := if lead < 0 then "e-" else "e+"
    String.ofList mantissa ++ sign ++ Nat.repr lead.natAbs

/-- The text of a number. -/
def Number.text : Number → String
  | .integer (.ofNat n) => Nat.repr n
  | .integer (.negSucc n) => "-" ++ Nat.repr (n + 1)
  | .float negative magnitude =>
      let sign := if negative then "-" else ""
      if magnitude = Binary64.zero then sign ++ "0.0"
      else sign ++ decimalStyle.text magnitude.shortest

end FilmCatalog.Json
