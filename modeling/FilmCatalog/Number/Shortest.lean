/-
  FilmCatalog.Number.Shortest
  ───────────────────────────
  **THE SHORTEST DECIMAL THAT READS BACK.**

  A positive binary64 number stands for every real that rounds to it: an
  interval, with its ends if the pattern is even.  The shortest decimal is
  the point of that interval on the coarsest grid `c * 10^k` that has one,
  and of two such points the nearer.
-/
import FilmCatalog.Number.Binary64

namespace FilmCatalog

/-- The decimal number `digits * 10^exponent`. -/
structure Decimal where
  digits : Nat
  exponent : Int
  deriving DecidableEq, Repr

namespace Binary64

/-- The reals that round to a number, over the denominator `2^1076`. -/
structure Interval where
  low : Nat
  value : Nat
  high : Nat
  closed : Bool

/-- The interval of a positive finite number.  Below a power of two the
numbers lie twice as close. -/
def interval (x : Binary64) : Interval :=
  let unit := Nat.pow 2 x.unitExponent
  let value := 4 * x.scaled
  let below :=
    if x.significand = Nat.pow 2 fractionWidth ∧ 0 < x.unitExponent then unit else 2 * unit
  { low := value - below, value, high := value + 2 * unit, closed := x.bits % 2 == 0 }

/-- Whether a point over the same denominator lies in the interval. -/
def Interval.has (i : Interval) (point : Nat) : Bool :=
  if i.closed then i.low ≤ point && point ≤ i.high
  else i.low < point && point < i.high

/-- The multiple of `10^k` in the interval that is nearest to its value, if
there is one. -/
def Interval.onGrid? (i : Interval) (k : Int) : Option Decimal :=
  let scale := if k < 0 then Nat.pow 10 k.natAbs else 1
  let step := (if k < 0 then 1 else Nat.pow 10 k.toNat) * Nat.pow 2 1076
  let scaled : Interval :=
    { i with low := i.low * scale, value := i.value * scale, high := i.high * scale }
  let below := scaled.value / step
  let hitBelow := scaled.has (below * step)
  let hitAbove := scaled.has ((below + 1) * step)
  let twice := 2 * (scaled.value % step)
  let belowNearer := twice < step || (twice == step && below % 2 == 0)
  if hitBelow && (belowNearer || !hitAbove) then some ⟨below, k⟩
  else if hitAbove then some ⟨below + 1, k⟩
  else none

/-- The shortest decimal that rounds to a positive finite number. -/
def shortest (x : Binary64) : Decimal :=
  let i := x.interval
  ((List.range 660).findSome? fun (step : Nat) => i.onGrid? (309 - (step : Int))).getD ⟨0, 0⟩

end Binary64

end FilmCatalog
