/-
  FilmCatalog.Number.Binary64
  ───────────────────────────
  **ROUNDING TO BINARY64, IN EXACT ARITHMETIC.**

  A number of this module is a non-negative binary64 number or infinity,
  held by its bit pattern.  Patterns are ordered as the numbers they stand
  for, so comparing two numbers is comparing two naturals.

  A finite number is `scaled / 2^1074` for a natural `scaled`.  Products,
  quotients and whole numbers are therefore quotients of naturals, and there
  is one rounding, `roundQuotient`: to the nearest number, a tie to the even
  pattern.
-/

namespace FilmCatalog

/-- A non-negative binary64 number, or infinity, by its bit pattern. -/
structure Binary64 where
  bits : Nat
  deriving DecidableEq, Repr

namespace Binary64

/-! ## §1. Patterns and values. -/

/-- The exponent of the smallest positive number, with its sign changed. -/
def scaleExponent : Nat := 1074

/-- The width of the fraction field. -/
def fractionWidth : Nat := 52

/-- The pattern of infinity. -/
def infinity : Binary64 := ⟨0x7ff * Nat.pow 2 fractionWidth⟩

/-- Whether a pattern stands for infinity. -/
def isInfinite (x : Binary64) : Bool := infinity.bits ≤ x.bits

/-- Zero. -/
def zero : Binary64 := ⟨0⟩

/-- The distance to the next pattern, as a power of two over `2^1074`. -/
def unitExponent (x : Binary64) : Nat := x.bits / Nat.pow 2 fractionWidth - 1

/-- The number of units in a finite number. -/
def significand (x : Binary64) : Nat :=
  if x.bits < Nat.pow 2 fractionWidth then x.bits
  else x.bits % Nat.pow 2 fractionWidth + Nat.pow 2 fractionWidth

/-- A finite number is `scaled / 2^1074`. -/
def scaled (x : Binary64) : Nat := x.significand * Nat.pow 2 x.unitExponent

instance : Ord Binary64 := ⟨fun x y => compare x.bits y.bits⟩

instance : LE Binary64 := ⟨fun x y => x.bits ≤ y.bits⟩

instance (x y : Binary64) : Decidable (x ≤ y) := inferInstanceAs (Decidable (x.bits ≤ y.bits))

/-! ## §2. Rounding. -/

/-- The quotient of two naturals, rounded to a natural: the nearest one, of
two nearest ones the even one. -/
def divToEven (n d : Nat) : Nat :=
  let q := n / d
  let r := n % d
  if d < 2 * r || (d == 2 * r && q % 2 == 1) then q + 1 else q

/-- The binary64 number nearest to `n / d`. -/
def roundQuotient (n d : Nat) : Binary64 :=
  let n := n * Nat.pow 2 scaleExponent
  let unit := Nat.log2 (n / d) - fractionWidth
  ⟨min (unit * Nat.pow 2 fractionWidth + divToEven n (d * Nat.pow 2 unit)) infinity.bits⟩

/-- The number nearest to a natural. -/
def ofNat (n : Nat) : Binary64 := roundQuotient n 1

/-- The rounded product of two finite numbers. -/
def mul (x y : Binary64) : Binary64 :=
  roundQuotient (x.scaled * y.scaled) (Nat.pow 2 scaleExponent * Nat.pow 2 scaleExponent)

/-- The rounded quotient of two finite numbers. -/
def div (x y : Binary64) : Binary64 := roundQuotient x.scaled y.scaled

/-! ## §3. Decimal scaling. -/

/-- The largest power of ten that is finite. -/
def maxTenExponent : Nat := 308

/-- The number nearest to `10^k`. -/
def powTen (k : Nat) : Binary64 := ofNat (Nat.pow 10 k)

/-- Divides by `10^k` in rounded steps of at most `10^308`. -/
def scaleDown (x : Binary64) (k : Nat) : Binary64 :=
  if k ≤ maxTenExponent then x.div (powTen k)
  else if x = zero then x
  else scaleDown (x.div (powTen maxTenExponent)) (k - maxTenExponent)
termination_by k
decreasing_by simp only [maxTenExponent] at *; omega

/-- `significand * 10^exponent`, by one rounded multiplication or by rounded
divisions; `none` if that is out of range. -/
def ofDecimal? (significand : Nat) (exponent : Int) : Option Binary64 :=
  let x := ofNat significand
  if exponent < 0 then some (x.scaleDown exponent.natAbs)
  else if x = zero then some x
  else if exponent.toNat ≤ maxTenExponent then
    let product := x.mul (powTen exponent.toNat)
    if product.isInfinite then none else some product
  else none

end Binary64

end FilmCatalog
