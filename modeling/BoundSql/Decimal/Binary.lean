/-! # Binary floating point

A finite binary number is a whole multiple `mantissa · 2 ^ exponent`.  A format fixes how many bits
the fraction and the exponent take; the word of a number is its sign bit followed by its
*magnitude*.  Read as a natural number, the magnitude counts the non-negative finite numbers in
increasing order, so the magnitude of `mantissa · 2 ^ exponent` is
`(exponent - least exponent) · 2 ^ fractionBits + mantissa`, and a carry out of the rounded mantissa
lands on the next number by itself.

`Format.nearest` rounds a quotient of natural numbers to the nearest magnitude, a tie to the even
mantissa.  Every other operation here is exact arithmetic followed by that one rounding: reading
integers, narrowing, widening, products and quotients.
-/

namespace BoundSql

namespace Binary

/-- The sizes of the fields of a word. -/
structure Format where
  fractionBits : Nat
  exponentBits : Nat

/-- Words of 64 bits. -/
def Format.double : Format := ⟨52, 11⟩

/-- Words of 32 bits. -/
def Format.single : Format := ⟨23, 8⟩

/-- Numbers with a significand of 64 bits, for results on the way to a double or its text. -/
def Format.extended : Format := ⟨63, 15⟩

/-- The magnitude of infinity, the first one that is not finite. -/
def Format.infinity (f : Format) : Nat :=
  (Nat.pow 2 f.exponentBits - 1) * Nat.pow 2 f.fractionBits

/-- The weight of the sign bit. -/
def Format.signWeight (f : Format) : Nat :=
  Nat.pow 2 (f.fractionBits + f.exponentBits)

/-- The exponent of the smallest positive number. -/
def Format.leastExponent (f : Format) : Int :=
  2 - Nat.pow 2 (f.exponentBits - 1) - f.fractionBits

/-- A quotient of natural numbers. -/
structure Ratio where
  num : Nat
  den : Nat

/-- The quotient `mantissa · 2 ^ exponent`. -/
def Ratio.ofScaled (mantissa : Nat) (exponent : Int) : Ratio :=
  if 0 ≤ exponent then ⟨mantissa * Nat.pow 2 exponent.toNat, 1⟩
  else ⟨mantissa, Nat.pow 2 (-exponent).toNat⟩

/-- The product of two quotients. -/
def Ratio.mul (a b : Ratio) : Ratio := ⟨a.num * b.num, a.den * b.den⟩

/-- The quotient of two quotients. -/
def Ratio.div (a b : Ratio) : Ratio := ⟨a.num * b.den, a.den * b.num⟩

/-- The quotient rounded to the nearest natural number, a tie to the even one. -/
def Ratio.round (r : Ratio) : Nat :=
  let floor := r.num / r.den
  let rest := 2 * (r.num % r.den)
  if rest < r.den then floor
  else if r.den < rest then floor + 1
  else floor + floor % 2

/-- The power of two at or below a positive quotient, as an exponent. -/
def Ratio.log2 (r : Ratio) : Int :=
  let guess : Int := (r.num.log2 : Int) - (r.den.log2 : Int)
  let reaches :=
    if 0 ≤ guess then decide (r.den * Nat.pow 2 guess.toNat ≤ r.num)
    else decide (r.den ≤ r.num * Nat.pow 2 (-guess).toNat)
  if reaches then guess else guess - 1

/-- The mantissa and the exponent that a finite magnitude stands for. -/
def Format.parts (f : Format) (magnitude : Nat) : Nat × Int :=
  let field := magnitude / Nat.pow 2 f.fractionBits
  if field = 0 then (magnitude, f.leastExponent)
  else
    (magnitude % Nat.pow 2 f.fractionBits + Nat.pow 2 f.fractionBits, f.leastExponent + field - 1)

/-- The value of a finite magnitude. -/
def Format.value (f : Format) (magnitude : Nat) : Ratio :=
  let (mantissa, exponent) := f.parts magnitude
  Ratio.ofScaled mantissa exponent

/-- The magnitude nearest to a quotient, infinity when the quotient is too large. -/
def Format.nearest (f : Format) (r : Ratio) : Nat :=
  if r.num = 0 then 0
  else
    let exponent := max f.leastExponent (r.log2 - f.fractionBits)
    let mantissa := (r.div (Ratio.ofScaled 1 exponent)).round
    min ((exponent - f.leastExponent).toNat * Nat.pow 2 f.fractionBits + mantissa) f.infinity

/-- The rounded product of two finite magnitudes. -/
def Format.mul (f : Format) (a b : Nat) : Nat :=
  f.nearest ((f.value a).mul (f.value b))

end Binary

/-! ### Doubles -/

/-- A binary number of 64 bits, known by its word.  Two words may stand for equal numbers: compare
with `Double.equal`. -/
structure Double where
  word : UInt64
  deriving DecidableEq, Repr

/-- A binary number of 32 bits. -/
structure Single where
  word : UInt32
  deriving DecidableEq, Repr

namespace Double

open Binary

/-- The word without its sign bit. -/
def magnitude (x : Double) : Nat :=
  x.word.toNat % Format.double.signWeight

/-- Whether the sign bit is set. -/
def negative (x : Double) : Bool :=
  decide (Format.double.signWeight ≤ x.word.toNat)

/-- The double of a sign and a magnitude. -/
def ofMagnitude (negative : Bool) (magnitude : Nat) : Double :=
  ⟨UInt64.ofNat ((if negative then Format.double.signWeight else 0) + magnitude)⟩

/-- Whether the double is no number. -/
def isNaN (x : Double) : Bool :=
  decide (Format.double.infinity < x.magnitude)

/-- Whether the double is plus or minus infinity. -/
def isInfinite (x : Double) : Bool :=
  x.magnitude == Format.double.infinity

/-- Whether the double is a finite number. -/
def isFinite (x : Double) : Bool :=
  decide (x.magnitude < Format.double.infinity)

/-- Whether the double is plus or minus zero. -/
def isZero (x : Double) : Bool :=
  x.magnitude == 0

/-- Equality of numbers: NaN equals nothing, and the two zeros are equal. -/
def equal (x y : Double) : Bool :=
  !x.isNaN && !y.isNaN && (x.word == y.word || (x.isZero && y.isZero))

/-- The same number with the other sign. -/
def neg (x : Double) : Double :=
  ofMagnitude (!x.negative) x.magnitude

/-- The double nearest to a quotient. -/
def ofRatio (negative : Bool) (r : Ratio) : Double :=
  ofMagnitude negative (Format.double.nearest r)

/-- The double nearest to a natural number. -/
def ofNat (n : Nat) : Double :=
  ofRatio false ⟨n, 1⟩

/-- The double nearest to an integer; zero becomes plus zero. -/
def ofInt (i : Int) : Double :=
  ofRatio (decide (i < 0)) ⟨i.natAbs, 1⟩

/-- The absolute value of a finite double. -/
def ratio (x : Double) : Ratio :=
  Format.double.value x.magnitude

/-- The rounded product of two non-negative finite doubles. -/
def mul (x y : Double) : Double :=
  ofMagnitude false (Format.double.mul x.magnitude y.magnitude)

/-- The rounded quotient of a non-negative and a positive finite double. -/
def div (x y : Double) : Double :=
  ofRatio false (x.ratio.div y.ratio)

end Double

namespace Single

open Binary

/-- The word without its sign bit. -/
def magnitude (x : Single) : Nat :=
  x.word.toNat % Format.single.signWeight

/-- Whether the sign bit is set. -/
def negative (x : Single) : Bool :=
  decide (Format.single.signWeight ≤ x.word.toNat)

/-- Whether the number is no number. -/
def isNaN (x : Single) : Bool :=
  decide (Format.single.infinity < x.magnitude)

/-- The single of a sign and a magnitude. -/
def ofMagnitude (negative : Bool) (magnitude : Nat) : Single :=
  ⟨UInt32.ofNat ((if negative then Format.single.signWeight else 0) + magnitude)⟩

/-- A NaN. -/
def nan : Single :=
  ofMagnitude false (Format.single.infinity + Nat.pow 2 22)

end Single

/-- The single nearest to a double. -/
def Double.toSingle (x : Double) : Single :=
  if x.isNaN then Single.nan
  else if x.isInfinite then Single.ofMagnitude x.negative Binary.Format.single.infinity
  else Single.ofMagnitude x.negative (Binary.Format.single.nearest x.ratio)

/-- The double with the same value as a single. -/
def Single.toDouble (x : Single) : Double :=
  if x.isNaN then Double.ofMagnitude x.negative (Binary.Format.double.infinity + Nat.pow 2 51)
  else if x.magnitude = Binary.Format.single.infinity then
    Double.ofMagnitude x.negative Binary.Format.double.infinity
  else Double.ofRatio x.negative (Binary.Format.single.value x.magnitude)

end BoundSql
