import BoundSql.Connection.Basic
import BoundSql.Decimal.Layout

/-! # Storing values, and a database that echoes them

A database with four storage classes keeps a bool as an integer, and dates, times, timestamps, UUIDs
and JSON as their texts.  `Stored.read` is what such a database hands back.

`Echo` is a database whose only statements select their own parameters: each column of its one row
is a bound parameter, perhaps cast to text.  A cast takes over the bytes of a blob, which need not
be text; that is found out when the cell is read.  A double is cast with fifteen digits.  A NaN is
kept as null.  Columns are found by name, in any case of ASCII letters, and the first one counts.
-/

namespace BoundSql

/-- A value as a database with four storage classes keeps it; texts are kept as bytes. -/
inductive Stored where
  | int (i : Int64)
  | real (x : Double)
  | text (bytes : List UInt8)
  | blob (bytes : List UInt8)
  deriving DecidableEq, Repr

/-- How a value is stored. -/
def Value.stored : Value → Stored
  | .bool b => .int (if b then 1 else 0)
  | .int i => .int i
  | .real x => .real x
  | .text s => .text (Utf8.encode s)
  | .blob bytes => .blob bytes
  | .date d => .text (Utf8.encode d.text)
  | .time t => .text (Utf8.encode t.text)
  | .timestamp t => .text (Utf8.encode t.text)
  | .uuid u => .text (Utf8.encode u.text)
  | .json j => .text (Utf8.encode j.compact)

namespace Stored

/-- The value of a stored cell; bytes kept as text must be text. -/
def read : Stored → Except Utf8.Fault Value
  | .int i => .ok (.int i)
  | .real x => .ok (.real x)
  | .text bytes => (Utf8.decode bytes).map .text
  | .blob bytes => .ok (.blob bytes)

/-- What is kept of a bound value: a NaN becomes null. -/
def kept? : Stored → Option Stored
  | .real x => if x.isNaN then none else some (.real x)
  | other => some other

/-- The text of a stored double. -/
def realText (x : Double) : String :=
  if x.isInfinite then (if x.negative then "-Inf" else "Inf")
  else Decimal.Layout.stored.finite x

/-- A stored value cast to text. -/
def castText : Stored → Stored
  | .int i => .text (Utf8.encode (Decimal.integer i.toInt))
  | .real x => .text (Utf8.encode (realText x))
  | .text bytes => .text bytes
  | .blob bytes => .text bytes

end Stored

namespace Echo

/-- A column of an echoing statement. -/
structure Column where
  name : String
  cast : Bool
  deriving DecidableEq, Repr

/-! ### Statement texts -/

/-- The text of a column. -/
def Column.sql (c : Column) : String :=
  (if c.cast then "CAST(? AS TEXT)" else "?") ++ " AS " ++ Quoted.quote '"' c.name

/-- The text of an echoing statement. -/
def sql (columns : List Column) : String :=
  "SELECT " ++ String.intercalate ", " (columns.map Column.sql)

/-- What follows a given start of a text. -/
def after? (start cs : List Char) : Option (List Char) :=
  if cs.take start.length = start then some (cs.drop start.length) else none

/-- Read a quoted name after its opening quote. -/
def readName? : List Char → Option (List Char × List Char)
  | '"' :: '"' :: rest => (readName? rest).map fun (name, more) => ('"' :: name, more)
  | '"' :: rest => some ([], rest)
  | c :: rest => (readName? rest).map fun (name, more) => (c :: name, more)
  | [] => none

/-- Read a column. -/
def readColumn? (cs : List Char) : Option (Column × List Char) := do
  let (cast, rest) ←
    match after? "CAST(? AS TEXT) AS \"".toList cs with
    | some rest => some (true, rest)
    | none => (after? "? AS \"".toList cs).map fun rest => (false, rest)
  let (name, more) ← readName? rest
  return (⟨String.ofList name, cast⟩, more)

/-- Read columns with commas between them; at most `fuel` of them. -/
def readColumns? : (fuel : Nat) → List Char → Option (List Column)
  | 0, _ => none
  | fuel + 1, cs => do
    let (c, rest) ← readColumn? cs
    if rest = [] then return [c]
    else
      let more ← after? ", ".toList rest
      let cs ← readColumns? fuel more
      return c :: cs

/-- The columns of an echoing statement. -/
def parse? (statement : String) : Option (List Column) := do
  let rest ← after? "SELECT ".toList statement.toList
  readColumns? (rest.length + 1) rest

/-! ### The database -/

/-- A prepared statement: its columns, and what is bound to each. -/
structure Prepared where
  columns : List Column
  bound : List (Option Stored)

/-- Equality of names in any case of ASCII letters. -/
def sameName (a b : String) : Bool :=
  a.toList.map Char.toLower == b.toList.map Char.toLower

/-- The cell of a column. -/
def cellOf (column : String) (c : Column) : Option Stored → Except SqlError (Option Value)
  | none => .ok none
  | some v =>
    match (if c.cast then v.castText else v).read with
    | .ok v => .ok (some v)
    | .error fault => .error (.decode column (.utf8 fault))

/-- The row of a prepared statement. -/
def Prepared.row (p : Prepared) : Row where
  cell column :=
    match (p.columns.zip p.bound).find? fun c => sameName c.1.name column with
    | some (c, v) => cellOf column c v
    | none => .error (.database (.unknownColumn column))

/-- The place that an index names, counted from zero: indices start from one, and only their low 32
bits count. -/
def Prepared.place? (p : Prepared) (index : Nat) : Option Nat :=
  match index % UInt32.size with
  | 0 => none
  | place + 1 => if place < p.columns.length then some place else none

/-- Bind at an index. -/
def Prepared.bind (p : Prepared) (index : Nat) (v : Option Stored) :
    Except SqlError Unit × Prepared :=
  match p.place? index with
  | some place => (.ok (), { p with bound := p.bound.set place v })
  | none => (.error (.database .indexOutOfRange), p)

/-- The echoing database; its state is a clock, and to prepare or run takes a nanosecond. -/
def machine : Machine Nat Prepared where
  now clock := clock
  prepare statement clock :=
    match parse? statement with
    | some columns => (.ok ⟨columns, columns.map fun _ => none⟩, clock + 1)
    | none => (.error (.database .badStatement), clock + 1)
  bind index p s :=
    let (result, prepared) := s.2.bind index (p.value?.bind fun v => v.stored.kept?)
    (result, (s.1, prepared))
  update s := (.error (.database .returnedRows), (s.1 + 1, s.2))
  query s := .ofRows [s.2.row] (.ok ()) (s.1 + 1, s.2)

/-- The connection to the echoing database. -/
def connection : Connection Nat Prepared :=
  machine.connection

end Echo

end BoundSql
