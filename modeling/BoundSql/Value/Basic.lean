import BoundSql.Calendar.Text
import BoundSql.Json.Printer
import BoundSql.SqlType
import BoundSql.Text.Quoted
import BoundSql.Uuid

/-! # Values

A value is what a statement binds to a placeholder.  Null is no value: where a null may stand, the
type is `Option Value`.

Two values are equal when they are of one kind and equal there; doubles are compared as numbers, so
a NaN differs from itself.
-/

namespace BoundSql

/-- A value other than null. -/
inductive Value where
  | bool (b : Bool)
  | int (i : Int64)
  | real (x : Double)
  | text (s : String)
  | blob (bytes : List UInt8)
  | date (d : Date)
  | time (t : Time)
  | timestamp (t : Timestamp)
  | uuid (u : Uuid)
  | json (j : Json)

namespace Value

/-- The type that the value has by itself. -/
def sqlType : Value → SqlType
  | .bool _ => .boolean
  | .int _ => .bigInt
  | .real _ => .double
  | .text _ => .varchar
  | .blob _ => .blob
  | .date _ => .date
  | .time _ => .time
  | .timestamp _ => .timestamp
  | .uuid _ => .uuid
  | .json _ => .json

/-- The name of the value's kind in messages. -/
def kind : Value → String
  | .bool _ => "bool"
  | .int _ => "integer"
  | .real _ => "real"
  | .text _ => "text"
  | .blob _ => "blob"
  | .date _ => "date"
  | .time _ => "time"
  | .timestamp _ => "timestamp"
  | .uuid _ => "uuid"
  | .json _ => "json"

/-- Equality of values. -/
def equal : Value → Value → Bool
  | .bool a, .bool b => a == b
  | .int a, .int b => a == b
  | .real a, .real b => a.equal b
  | .text a, .text b => a == b
  | .blob a, .blob b => a == b
  | .date a, .date b => a == b
  | .time a, .time b => a == b
  | .timestamp a, .timestamp b => a == b
  | .uuid a, .uuid b => a == b
  | .json a, .json b => a.equal b
  | _, _ => false

instance : BEq Value := ⟨equal⟩

/-- The text of a double: positional, with its shortest decimal, or a word when not finite. -/
def realText (x : Double) : String :=
  if x.isNaN then "NaN"
  else if x.isInfinite then (if x.negative then "-inf" else "inf")
  else Decimal.Layout.plain.finite x

/-- The text that shows a value; text stands in single quotes, of a blob only the length is shown. -/
def display : Value → String
  | .bool true => "true"
  | .bool false => "false"
  | .int i => Decimal.integer i.toInt
  | .real x => realText x
  | .text s => Quoted.quote '\'' s
  | .blob bytes => "<" ++ Decimal.natural bytes.length ++ " bytes>"
  | .date d => d.text
  | .time t => t.text
  | .timestamp t => t.text
  | .uuid u => u.text
  | .json j => j.compact

/-- Fold of an integer into 64 bits, if it fits. -/
def int64? (i : Int) : Option Int64 :=
  if Int64.minValue.toInt ≤ i ∧ i ≤ Int64.maxValue.toInt then some (Int64.ofInt i) else none

end Value

end BoundSql
