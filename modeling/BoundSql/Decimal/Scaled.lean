import BoundSql.Decimal.Shortest

/-! # Decimals of fifteen digits

A double is brought to fifteen significant digits by scaling it first.  It is multiplied by powers
of ten until it lies between `10 ^ 17` and `10 ^ 19`; the powers and the products are rounded to
significands of 64 bits.  The whole part of the result has eighteen or nineteen digits, and the
sixteenth of them decides whether the fifteenth goes up.

Because of the roundings on the way, the result need not be the nearest decimal of fifteen digits
when the digits behind the fifteenth are close to a half.
-/

namespace BoundSql.Decimal

open Binary

/-- A number `magnitude · 10 ^ exponent`, where the magnitude stands for an extended number. -/
structure Scaled where
  magnitude : Nat
  exponent : Int

/-- The extended number nearest to a power of ten. -/
def extendedPower (e : Int) : Nat :=
  Format.extended.nearest (if 0 ≤ e then ⟨Nat.pow 10 e.toNat, 1⟩ else ⟨1, Nat.pow 10 (-e).toNat⟩)

namespace Scaled

/-- A positive finite double before scaling. -/
def ofDouble (x : Double) : Scaled where
  magnitude := Format.extended.nearest x.ratio
  exponent := 0

/-- Move places from the exponent into the magnitude, which is rounded. -/
def shift (s : Scaled) (places : Int) : Scaled where
  magnitude := Format.extended.mul s.magnitude (extendedPower places)
  exponent := s.exponent - places

/-- Make the magnitude smaller by some places if it reaches `10 ^ limit`. -/
def lower (s : Scaled) (limit places : Int) : Scaled :=
  if extendedPower limit ≤ s.magnitude then s.shift (-places) else s

/-- Make the magnitude larger by some places if it is below `10 ^ limit`. -/
def raise (s : Scaled) (limit places : Int) : Scaled :=
  if s.magnitude < extendedPower limit then s.shift places else s

/-- A step taken several times; twelve times are more than any double needs. -/
def twelveTimes (step : Scaled → Scaled) (s : Scaled) : Scaled :=
  Nat.repeat step 12 s

/-- Scale to a magnitude below `10 ^ 19`: by a hundred places at a time, then by ten, then by one. -/
def descend (s : Scaled) : Scaled :=
  twelveTimes (lower · 19 1) (twelveTimes (lower · 29 10) (twelveTimes (lower · 119 100) s))

/-- Scale to a magnitude from `10 ^ 17` on: by a hundred places at a time, then by ten, then by
one. -/
def ascend (s : Scaled) : Scaled :=
  twelveTimes (raise · 17 1) (twelveTimes (raise · 7 10) (twelveTimes (raise · (-97) 100) s))

/-- The whole part of the magnitude. -/
def whole (s : Scaled) : Nat :=
  let r := Format.extended.value s.magnitude
  r.num / r.den

end Scaled

/-- A whole number brought to `count` digits, fewer than it has; the next digit decides. -/
def leadingDigits (count n : Nat) : Scientific :=
  let dropped := (digits n).length - count
  ⟨(n / Nat.pow 10 (dropped - 1) + 5) / 10, dropped⟩

/-- A positive finite double brought to fifteen digits. -/
def fifteenDigits (x : Double) : Scientific :=
  let s := (Scaled.ofDouble x).descend.ascend
  let d := leadingDigits 15 s.whole
  ⟨d.coefficient, d.exponent + s.exponent⟩

end BoundSql.Decimal
