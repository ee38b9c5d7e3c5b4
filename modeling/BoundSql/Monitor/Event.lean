import BoundSql.Statement.Kind
import BoundSql.Text.Utf8

/-! # What monitors are told

A monitor is told when a statement starts, when it completes and with which result, and when it was
slow.  All three carry the context of the statement: its text, how many parameters were bound, and
what kind of statement the text is.
-/

namespace BoundSql

/-- A span of time, in nanoseconds. -/
structure Duration where
  nanos : Nat
  deriving DecidableEq, Repr

namespace Duration

/-- The span of seconds and nanoseconds. -/
def of (seconds nanos : Nat) : Duration :=
  ⟨seconds * 1000000000 + nanos⟩

/-- The whole seconds of a span. -/
def seconds (d : Duration) : Nat :=
  d.nanos / 1000000000

/-- The nanoseconds of a span beyond its whole seconds. -/
def subsecond (d : Duration) : Nat :=
  d.nanos % 1000000000

/-- The whole microseconds of a span, as a word of 64 bits: higher bits are lost. -/
def microsWord (d : Duration) : Nat :=
  d.nanos / 1000 % UInt64.size

/-- The greatest number of nanoseconds that a word of 64 bits holds. -/
def greatestWord : Nat := UInt64.size - 1

/-- The nanoseconds of a span, at most those that a word of 64 bits holds. -/
def clampedNanos (d : Duration) : Nat :=
  min d.nanos greatestWord

end Duration

namespace Monitor

/-- What a monitor learns about a statement before it runs. -/
structure Context where
  sql : String
  paramCount : Nat
  kind : Kind
  tag? : Option String := none
  deriving DecidableEq, Repr

/-- The context of a text; the kind is read off it. -/
def Context.of (sql : String) (paramCount : Nat) : Context where
  sql := sql
  paramCount := paramCount
  kind := Kind.ofSql sql

/-- The context with a tag. -/
def Context.withTag (c : Context) (tag : String) : Context :=
  { c with tag? := some tag }

/-- How a statement ended. -/
inductive Result where
  | rows (count : Nat)
  | affected (count : Nat)
  | error (message : String)
  deriving DecidableEq, Repr

namespace Result

/-- The greatest length in bytes of an error message that is kept whole. -/
def messageLimit : Nat := 512

/-- A failure; a long message is cut and ends in three dots. -/
def ofError (message : String) : Result :=
  .error (Utf8.cutWithDots message messageLimit)

/-- Whether the statement failed. -/
def isError : Result → Bool
  | .error _ => true
  | _ => false

/-- The text that shows a result. -/
def display : Result → String
  | .rows count => Decimal.natural count ++ " rows"
  | .affected count => Decimal.natural count ++ " affected"
  | .error message => "error: " ++ message

end Result

/-- What a monitor is told. -/
inductive Event where
  | started (c : Context)
  | completed (c : Context) (d : Duration) (r : Result)
  | slow (c : Context) (d : Duration)
  deriving DecidableEq, Repr

/-- The context of an event. -/
def Event.context : Event → Context
  | .started c => c
  | .completed c _ _ => c
  | .slow c _ => c

end Monitor

end BoundSql
