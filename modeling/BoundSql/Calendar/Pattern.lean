import BoundSql.Calendar.Basic
import BoundSql.Decimal.Digits
import BoundSql.Text.Blank

/-! # Calendar text

A pattern is a list of parts: numeric fields, an optional fraction of a second, fixed characters and
gaps.  The same pattern writes a reading of calendar and clock and reads one back.

Written years have at least four digits and a sign outside of 0 to 9999; the other fields have two
digits.  A fraction has the fewest of three, six or nine digits that is exact, or is left out.

Reading is more liberal: blanks may stand before a number, numbers may be shorter, a year with a
sign may be longer, a fraction may have any number of digits.  Reading stops at the first fault.
-/

namespace BoundSql.Calendar

open Decimal

/-- What calendar and clock show; a leap second shows as second 60. -/
structure Reading where
  year : Int
  month : Nat
  day : Nat
  hour : Nat
  minute : Nat
  second : Nat
  nano : Nat
  deriving DecidableEq, Repr

/-- What is shown before anything was read. -/
def Reading.start : Reading := ⟨0, 1, 1, 0, 0, 0, 0⟩

/-- A part of a calendar text. -/
inductive Part where
  | year
  | month
  | day
  | hour
  | minute
  | second
  | fraction
  | mark (c : Char)
  | gap
  deriving DecidableEq, Repr

/-- A calendar text format. -/
abbrev Pattern := List Part

/-! ### Writing -/

/-- A year: four digits from 0 to 9999, otherwise a sign and at least four digits. -/
def yearText (year : Int) : List Char :=
  if 0 ≤ year ∧ year ≤ 9999 then paddedDigits 4 year.natAbs
  else (if year < 0 then '-' else '+') :: paddedDigits 4 year.natAbs

/-- A fraction of a second, in nanoseconds. -/
def fractionText (nano : Nat) : List Char :=
  if nano = 0 then []
  else if nano % 1000000 = 0 then '.' :: paddedDigits 3 (nano / 1000000)
  else if nano % 1000 = 0 then '.' :: paddedDigits 6 (nano / 1000)
  else '.' :: paddedDigits 9 nano

/-- The text of one part. -/
def Part.write (r : Reading) : Part → List Char
  | .year => yearText r.year
  | .month => paddedDigits 2 r.month
  | .day => paddedDigits 2 r.day
  | .hour => paddedDigits 2 r.hour
  | .minute => paddedDigits 2 r.minute
  | .second => paddedDigits 2 r.second
  | .fraction => fractionText r.nano
  | .mark c => [c]
  | .gap => [' ']

/-- The text of a reading. -/
def Pattern.write (p : Pattern) (r : Reading) : String :=
  String.ofList (p.flatMap (Part.write r))

/-! ### Reading -/

/-- Why a text shows no date or time. -/
inductive Fault where
  | tooShort
  | invalid
  | outOfRange
  | tooLong
  deriving DecidableEq, Repr

/-- The wording of a fault. -/
def Fault.message : Fault → String
  | .tooShort => "premature end of input"
  | .invalid => "input contains invalid characters"
  | .outOfRange => "input is out of range"
  | .tooLong => "trailing input"

/-- Read one or more digits, the first of which must be there. -/
def readDigits (ds rest : List Char) : Except Fault (Nat × List Char) :=
  match ds, rest with
  | [], [] => .error .tooShort
  | [], _ :: _ => .error .invalid
  | d :: ds, rest => .ok (ofDigits (d :: ds), rest)

/-- Read a number of at most `width` digits. -/
def readNumber (width : Nat) (cs : List Char) : Except Fault (Nat × List Char) :=
  let ds := (cs.take width).takeWhile isDigit
  readDigits ds (cs.drop ds.length)

/-- Read a number of any length. -/
def readLongNumber (cs : List Char) : Except Fault (Nat × List Char) :=
  readDigits (cs.takeWhile isDigit) (cs.dropWhile isDigit)

/-- Read a year: any number of digits after a sign, otherwise at most four. -/
def readYear (cs : List Char) : Except Fault (Int × List Char) :=
  match cs with
  | '-' :: rest => (readLongNumber rest).map fun (n, after) => (-(n : Int), after)
  | '+' :: rest => (readLongNumber rest).map fun (n, after) => ((n : Int), after)
  | _ => (readNumber 4 cs).map fun (n, after) => ((n : Int), after)

/-- Read the digits after a point: nine count, as nanoseconds, and the others are dropped. -/
def readFraction (cs : List Char) : Except Fault (Nat × List Char) :=
  let ds := (cs.take 9).takeWhile isDigit
  (readDigits ds (cs.drop ds.length)).map fun (n, after) =>
    (n * Nat.pow 10 (9 - ds.length), after.dropWhile isDigit)

/-- Refuse a number outside of its bounds. -/
def within (low high : Nat) (r : Except Fault (Nat × List Char)) : Except Fault (Nat × List Char) :=
  match r with
  | .error e => .error e
  | .ok (n, rest) => if low ≤ n ∧ n ≤ high then .ok (n, rest) else .error .outOfRange

/-- Read a number of one or two digits after blanks, and put it in its place. -/
def readField (low high : Nat) (cs : List Char) (place : Nat → Reading) :
    Except Fault (Reading × List Char) :=
  (within low high (readNumber 2 (Text.dropBlanks cs))).map fun (n, rest) => (place n, rest)

/-- Read one part. -/
def Part.read (r : Reading) (cs : List Char) : Part → Except Fault (Reading × List Char)
  | .year =>
    match readYear (Text.dropBlanks cs) with
    | .error e => .error e
    | .ok (y, rest) =>
      if Int32.minValue.toInt ≤ y ∧ y ≤ Int32.maxValue.toInt then .ok ({ r with year := y }, rest)
      else .error .outOfRange
  | .month => readField 1 12 cs fun n => { r with month := n }
  | .day => readField 1 31 cs fun n => { r with day := n }
  | .hour => readField 0 23 cs fun n => { r with hour := n }
  | .minute => readField 0 59 cs fun n => { r with minute := n }
  | .second => readField 0 60 cs fun n => { r with second := n }
  | .fraction =>
    match cs with
    | '.' :: rest => (readFraction rest).map fun (n, after) => ({ r with nano := n }, after)
    | _ => .ok (r, cs)
  | .mark c =>
    match cs with
    | [] => .error .tooShort
    | d :: rest => if d = c then .ok (r, rest) else .error .invalid
  | .gap => .ok (r, Text.dropBlanks cs)

/-- Read the parts in turn; the rest of the text is handed back. -/
def Pattern.readFrom : Pattern → Reading → List Char → Except Fault (Reading × List Char)
  | [], r, cs => .ok (r, cs)
  | part :: parts, r, cs =>
    match part.read r cs with
    | .error e => .error e
    | .ok (r, rest) => Pattern.readFrom parts r rest

/-- Refuse what is left over. -/
def finish (r : Except Fault (Reading × List Char)) : Except Fault Reading :=
  match r with
  | .error e => .error e
  | .ok (r, []) => .ok r
  | .ok (_, _ :: _) => .error .tooLong

/-- Read a whole text. -/
def Pattern.read (p : Pattern) (s : String) : Except Fault Reading :=
  finish (Pattern.readFrom p .start s.toList)

end BoundSql.Calendar
