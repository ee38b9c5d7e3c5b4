import BoundSql.Decimal.Scaled

/-! # Layouts of decimals

A layout turns digits and the exponent of the leading digit into text.  A number is written either
*positionally*, with zeros between its digits and the point, or with an exponent part.  The layout
says which decimal is written for a double, for which exponents the positional form is used, whether
a whole number keeps a fraction `.0`, how an exponent is written, and whether a zero keeps its sign.
Doubles that are not finite have no layout: whoever writes them has words of its own for them.
-/

namespace BoundSql.Decimal

/-- The decisions of a decimal text format. -/
structure Layout where
  /-- The decimal that is written for a positive finite double. -/
  decimal : Double → Scientific
  /-- Whether a leading digit of this exponent is written positionally. -/
  positional : Int → Bool
  /-- Whether a whole number ends in `.0`. -/
  pointed : Bool
  /-- Whether a single digit before an exponent is followed by `.0`. -/
  pointedMantissa : Bool
  /-- The text of an exponent, after the letter `e`. -/
  exponentText : Int → String
  /-- Whether minus zero is written with its sign. -/
  signedZero : Bool

/-- No exponents, and no fraction on whole numbers; ties go away from zero. -/
def Layout.plain : Layout where
  decimal := shortest .away
  positional _ := true
  pointed := false
  pointedMantissa := false
  exponentText := integer
  signedZero := true

/-- Positional from `0.00001` to below `10 ^ 16`, always with a fraction; an exponent has a sign.
Ties go to even. -/
def Layout.data : Layout where
  decimal := shortest .even
  positional e := decide (-5 ≤ e) && decide (e ≤ 15)
  pointed := true
  pointedMantissa := false
  exponentText e := (if e < 0 then "-" else "+") ++ natural e.natAbs
  signedZero := true

/-- Fifteen digits, positional from `0.0001` to below `10 ^ 15`, always with a fraction; an exponent
has a sign and two digits.  Zero has no sign. -/
def Layout.stored : Layout where
  decimal := fifteenDigits
  positional e := decide (-4 ≤ e) && decide (e ≤ 14)
  pointed := true
  pointedMantissa := true
  exponentText e := (if e < 0 then "-" else "+") ++ padded 2 e.natAbs
  signedZero := false

/-- Digits before and after the point, for a leading digit of exponent `e`. -/
def positionalText (pointed : Bool) (ds : List Char) (e : Int) : List Char :=
  if e < 0 then
    '0' :: '.' :: (List.replicate (-e - 1).toNat '0' ++ ds)
  else
    let places := e.toNat + 1
    let whole := ds.take places ++ List.replicate (places - ds.length) '0'
    match ds.drop places with
    | [] => if pointed then whole ++ ['.', '0'] else whole
    | fraction => whole ++ '.' :: fraction

/-- The text of digits whose leading digit has exponent `e`. -/
def Layout.arrange (l : Layout) (ds : List Char) (e : Int) : String :=
  if l.positional e then String.ofList (positionalText l.pointed ds e)
  else
    let mantissa :=
      match ds with
      | [] => []
      | [d] => if l.pointedMantissa then [d, '.', '0'] else [d]
      | d :: rest => d :: '.' :: rest
    String.ofList mantissa ++ "e" ++ l.exponentText e

/-- The digits of a coefficient without the zeros it ends in. -/
def trimmedDigits (coefficient : Nat) : List Char :=
  ((digits coefficient).reverse.dropWhile (· == '0')).reverse

/-- The text of a positive decimal. -/
def Layout.scientific (l : Layout) (s : Scientific) : String :=
  l.arrange (trimmedDigits s.coefficient) (s.exponent + ((digits s.coefficient).length : Int) - 1)

/-- The text of the absolute value of a finite double. -/
def Layout.unsigned (l : Layout) (x : Double) : String :=
  if x.isZero then (if l.pointed then "0.0" else "0") else l.scientific (l.decimal x)

/-- The text of a finite double, with a minus sign when its sign bit is set. -/
def Layout.finite (l : Layout) (x : Double) : String :=
  if x.negative && (l.signedZero || !x.isZero) then "-" ++ l.unsigned x else l.unsigned x

end BoundSql.Decimal
