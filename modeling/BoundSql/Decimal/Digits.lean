/-! # Decimal digits

Whole numbers are written in base ten without leading zeros, or padded with zeros to a fixed width,
and read back digit by digit.
-/

namespace BoundSql.Decimal

/-! ### Writing -/

/-- The digits of a natural number; zero has one. -/
def digits (n : Nat) : List Char :=
  Nat.toDigits 10 n

/-- The text of a natural number. -/
def natural (n : Nat) : String :=
  String.ofList (digits n)

/-- The text of an integer, with a minus sign when it is negative. -/
def integer (i : Int) : String :=
  if i < 0 then "-" ++ natural i.natAbs else natural i.natAbs

/-- The digits of a natural number, with zeros in front up to `width` characters. -/
def paddedDigits (width n : Nat) : List Char :=
  List.replicate (width - (digits n).length) '0' ++ digits n

/-- The text of a natural number, with zeros in front up to `width` characters. -/
def padded (width n : Nat) : String :=
  String.ofList (paddedDigits width n)

/-! ### Reading -/

/-- Whether the character is one of the ten ASCII digits. -/
def isDigit (c : Char) : Bool :=
  '0' ≤ c && c ≤ '9'

/-- The value of an ASCII digit. -/
def digitValue (c : Char) : Nat :=
  c.toNat - '0'.toNat

/-- The number that the digits write after a number `acc`. -/
def ofDigitsFrom (acc : Nat) (cs : List Char) : Nat :=
  cs.foldl (fun n c => n * 10 + digitValue c) acc

/-- The number that the digits write. -/
def ofDigits (cs : List Char) : Nat :=
  ofDigitsFrom 0 cs

/-- The leading digits of a text, and the rest of it. -/
def spanDigits (cs : List Char) : List Char × List Char :=
  (cs.takeWhile isDigit, cs.dropWhile isDigit)

/-- The natural number that a whole text writes: one or more digits and nothing else. -/
def natural? (s : String) : Option Nat :=
  if s.toList ≠ [] ∧ s.toList.all isDigit then some (ofDigits s.toList) else none

/-- The integer that a whole text writes: a natural number, with a minus sign or without. -/
def integer? (s : String) : Option Int :=
  match s.toList with
  | '-' :: rest => (natural? (String.ofList rest)).map fun n => -(n : Int)
  | _ => (natural? s).map Int.ofNat

theorem ofDigitsFrom_append (acc : Nat) (a b : List Char) :
    ofDigitsFrom acc (a ++ b) = ofDigitsFrom (ofDigitsFrom acc a) b :=
  List.foldl_append

end BoundSql.Decimal
