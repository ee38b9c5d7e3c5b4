import BoundSql.Json.Basic
import BoundSql.Decimal.Digits

/-! # Reading JSON numbers

A number is an optional minus sign, digits without a leading zero, an optional fraction and an
optional exponent.  Without fraction and exponent it is an integer when it fits in 64 bits; minus
zero is a double.

A double is read with a significand of 64 bits.  Digits are taken from left to right as long as the
significand stays below `2 ^ 64`; further digits before the point only raise the exponent, further
digits after it are dropped.  The significand is rounded to a double and then multiplied or divided
by the double nearest to the power of ten, so two roundings take place.  A result past the largest
double is refused, one below the smallest is zero.
-/

namespace BoundSql.Json

open Decimal

/-- The digits that a significand takes before it would reach `2 ^ 64`: the significand after them,
and their number. -/
def absorb (significand : Nat) : List Char → Nat × Nat
  | [] => (significand, 0)
  | c :: rest =>
    let next := significand * 10 + digitValue c
    if next < UInt64.size then
      let (final, count) := absorb next rest
      (final, count + 1)
    else (significand, 0)

/-- The double nearest to a power of ten with a natural exponent. -/
def powerOfTen (n : Nat) : Double :=
  Double.ofNat (Nat.pow 10 n)

/-- A significand times a power of ten; `none` past the largest double. -/
def scale? (significand : Nat) (exponent : Int) : Option Double :=
  let x := Double.ofNat significand
  if x.isZero then some x
  else if 0 ≤ exponent then
    if exponent ≤ 308 then
      let y := x.mul (powerOfTen exponent.toNat)
      if y.isInfinite then none else some y
    else none
  else
    let places := (-exponent).toNat
    if places ≤ 308 then some (x.div (powerOfTen places))
    else if places ≤ 616 then some ((x.div (powerOfTen 308)).div (powerOfTen (places - 308)))
    else some (Double.ofNat 0)

/-- The double of a sign, a significand and an exponent. -/
def double? (negative : Bool) (significand : Nat) (exponent : Int) : Option Json :=
  (scale? significand exponent).map fun x => .double (if negative then x.neg else x)

/-- The integer of a sign and a natural number, or the double when it does not fit. -/
def whole? (negative : Bool) (n : Nat) : Option Json :=
  if negative then
    if n = 0 then double? true 0 0
    else
      match WideInt.ofInt? (-(n : Int)) with
      | some i => some (.integer i)
      | none => double? true n 0
  else
    match WideInt.ofInt? n with
    | some i => some (.integer i)
    | none => double? false n 0

/-- The digits after a point, when a point follows; `none` inside when no digit follows the
point. -/
def fraction? : List Char → Option (Option (List Char) × List Char)
  | '.' :: rest =>
    match spanDigits rest with
    | ([], _) => none
    | (ds, after) => some (some ds, after)
  | cs => some (none, cs)

/-- The exponent, when one follows. -/
def exponent? : List Char → Option (Option Int × List Char)
  | c :: rest =>
    if c = 'e' ∨ c = 'E' then
      let (negative, digitsFrom) :=
        match rest with
        | '+' :: more => (false, more)
        | '-' :: more => (true, more)
        | more => (false, more)
      match spanDigits digitsFrom with
      | ([], _) => none
      | (ds, after) =>
        let n : Int := ofDigits ds
        some (some (if negative then -n else n), after)
    else some (none, c :: rest)
  | [] => some (none, [])

/-- The number of digits before the point, an optional fraction and an optional exponent. -/
def number? (negative : Bool) (before : List Char) (fraction : Option (List Char))
    (exponent : Option Int) : Option Json :=
  let (head, taken) := absorb 0 before
  let dropped := before.length - taken
  match fraction, exponent with
  | none, none => if dropped = 0 then whole? negative head else double? negative head dropped
  | _, _ =>
    let (significand, places) := absorb head (fraction.getD [])
    double? negative significand ((dropped : Int) - places + exponent.getD 0)

/-- Read a number without its sign. -/
def readUnsigned? (negative : Bool) (cs : List Char) : Option (Json × List Char) :=
  let (before, afterDigits) := spanDigits cs
  if before = [] ∨ (before.head? = some '0' ∧ before.length ≠ 1) then none
  else do
    let (fraction, afterFraction) ← fraction? afterDigits
    let (exponent, rest) ← exponent? afterFraction
    let value ← number? negative before fraction exponent
    return (value, rest)

/-- Read the number that a text starts with. -/
def readNumber? : List Char → Option (Json × List Char)
  | '-' :: rest => readUnsigned? true rest
  | cs => readUnsigned? false cs

end BoundSql.Json
