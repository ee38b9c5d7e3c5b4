import BoundSql.Decimal.Binary
import BoundSql.Decimal.Digits

/-! # Shortest decimals

The decimal text of a double has the fewest digits that still read back as the same double, and of
the decimals with that many digits it is the one nearest to the double.

The doubles next to a double bound an interval of reals that round to it; its ends belong to it when
the mantissa is even.  For a growing number of digits, the value has two neighbours on the grid of
decimals with that many digits.  The first grid on which a neighbour lies in the interval wins.
Seventeen digits always suffice.  All comparisons are between natural numbers over one denominator.
-/

namespace BoundSql.Decimal

open Binary

/-- Where a value goes that lies halfway between two decimals. -/
inductive Tie where
  | away
  | even
  deriving DecidableEq, Repr

/-- A positive decimal `coefficient · 10 ^ exponent`. -/
structure Scientific where
  coefficient : Nat
  exponent : Int
  deriving DecidableEq, Repr

/-- The reals that round to a value, over one denominator; the ends are included when `closed`. -/
structure Interval where
  low : Nat
  value : Nat
  high : Nat
  den : Nat
  closed : Bool

/-- The interval of a positive finite magnitude.  Below a power of two the neighbour is only half as
far away as above it. -/
def Interval.ofMagnitude (magnitude : Nat) : Interval :=
  let (mantissa, exponent) := Format.double.parts magnitude
  let halved := decide (mantissa = Nat.pow 2 52 ∧ Format.double.leastExponent < exponent)
  let below := if halved then 1 else 2
  let unit := Ratio.ofScaled 1 (exponent - 2)
  { low := (4 * mantissa - below) * unit.num
    value := 4 * mantissa * unit.num
    high := (4 * mantissa + 2) * unit.num
    den := unit.den
    closed := mantissa % 2 == 0 }

/-- The interval in units of `10 ^ exponent`. -/
def Interval.inUnits (i : Interval) (exponent : Int) : Interval :=
  let up := Nat.pow 10 (-exponent).toNat
  { i with
    low := i.low * up
    value := i.value * up
    high := i.high * up
    den := i.den * Nat.pow 10 exponent.toNat }

/-- Whether the whole number `n` lies in the interval. -/
def Interval.contains (i : Interval) (n : Nat) : Bool :=
  if i.closed then decide (i.low ≤ n * i.den) && decide (n * i.den ≤ i.high)
  else decide (i.low < n * i.den) && decide (n * i.den < i.high)

/-- The whole number next to the value that lies in the interval, the nearer one of two. -/
def Interval.neighbour? (i : Interval) (tie : Tie) : Option Nat :=
  let below := i.value / i.den
  let above := below + 1
  match i.contains below, i.contains above with
  | false, false => none
  | true, false => some below
  | false, true => some above
  | true, true =>
    let rest := 2 * (i.value % i.den)
    if rest < i.den then some below
    else if i.den < rest then some above
    else
      match tie with
      | .away => some above
      | .even => some (if below % 2 = 0 then below else above)

/-- The exponent of the leading digit of a positive quotient. -/
def leadingExponent (r : Ratio) : Int :=
  if r.den ≤ r.num then ((digits (r.num / r.den)).length : Int) - 1
  else
    let places := (digits (r.den / r.num)).length
    if r.den = r.num * Nat.pow 10 (places - 1) then 1 - (places : Int) else -(places : Int)

/-- The first hit on the grids of `exponent`, `exponent - 1`, …, at most `tries` of them. -/
def search (i : Interval) (tie : Tie) : Nat → Int → Scientific
  | 0, exponent => ⟨i.value / i.den, exponent⟩
  | tries + 1, exponent =>
    match (i.inUnits exponent).neighbour? tie with
    | some n => ⟨n, exponent⟩
    | none => search i tie tries (exponent - 1)

/-- The shortest decimal that reads back as a positive finite double. -/
def shortest (tie : Tie) (x : Double) : Scientific :=
  let i := Interval.ofMagnitude x.magnitude
  search i tie 17 (leadingExponent ⟨i.value, i.den⟩)

end BoundSql.Decimal
