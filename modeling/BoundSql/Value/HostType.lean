import BoundSql.Error
import BoundSql.Json.Parser
import BoundSql.Value.Tagged

/-! # Host types

A host type is a type of the program that builds statements and reads rows: integers of several
widths, floats, text, bytes, the calendar types, UUIDs, JSON, and `Value` itself.  `Carrier` gives
the Lean type that stands for it.

`decode` reads a cell at a host type.  Besides values of its own kind, a host type accepts what
databases hand back in its place: an integer takes a bool, a float an integer, a bool an integer,
bytes a text, a date a timestamp; the calendar types, UUIDs and JSON are read from text, and a UUID
from a blob of sixteen bytes.

`toValue?` goes the other way, and `accept` is the value that a column of a host type writes when it
is given a value of a narrower one.
-/

namespace BoundSql

/-- An integer type of the host. -/
inductive IntWidth where
  | i8
  | i16
  | i32
  | i64
  | u8
  | u16
  | u32
  | u64
  deriving DecidableEq, Repr

namespace IntWidth

/-- The name of an integer type. -/
def name : IntWidth → String
  | .i8 => "i8"
  | .i16 => "i16"
  | .i32 => "i32"
  | .i64 => "i64"
  | .u8 => "u8"
  | .u16 => "u16"
  | .u32 => "u32"
  | .u64 => "u64"

/-- The least integer of a type. -/
def least : IntWidth → Int
  | .i8 => Int8.minValue.toInt
  | .i16 => Int16.minValue.toInt
  | .i32 => Int32.minValue.toInt
  | .i64 => Int64.minValue.toInt
  | .u8 | .u16 | .u32 | .u64 => 0

/-- The greatest integer of a type. -/
def greatest : IntWidth → Int
  | .i8 => Int8.maxValue.toInt
  | .i16 => Int16.maxValue.toInt
  | .i32 => Int32.maxValue.toInt
  | .i64 => Int64.maxValue.toInt
  | .u8 => UInt8.size - 1
  | .u16 => UInt16.size - 1
  | .u32 => UInt32.size - 1
  | .u64 => UInt64.size - 1

/-- Whether an integer belongs to a type. -/
def Holds (w : IntWidth) (i : Int) : Prop :=
  w.least ≤ i ∧ i ≤ w.greatest

instance (w : IntWidth) (i : Int) : Decidable (w.Holds i) :=
  inferInstanceAs (Decidable (_ ∧ _))

end IntWidth

/-- A type of the host program. -/
inductive HostType where
  | int (w : IntWidth)
  | single
  | double
  | bool
  | text
  | bytes
  | date
  | time
  | timestamp
  | uuid
  | json
  | value
  deriving DecidableEq, Repr

namespace HostType

/-- The elements of a host type. -/
def Carrier : HostType → Type
  | .int w => { i : Int // w.Holds i }
  | .single => Single
  | .double => Double
  | .bool => Bool
  | .text => String
  | .bytes => List UInt8
  | .date => Date
  | .time => Time
  | .timestamp => Timestamp
  | .uuid => Uuid
  | .json => Json
  | .value => Value

/-! ### Decoding -/

/-- The fault of a value of a wrong kind. -/
def refuse {α : Type} (expected : String) (v : Value) : Except DecodeFault α :=
  .error (.mismatch expected v.kind)

/-- The integer of a value. -/
def decodeInt : Value → Except DecodeFault Int64
  | .int i => .ok i
  | .bool b => .ok (if b then 1 else 0)
  | v => refuse "integer" v

/-- The integer of a value, within an integer type. -/
def decodeWidth (w : IntWidth) (v : Value) : Except DecodeFault { i : Int // w.Holds i } :=
  match decodeInt v with
  | .error e => .error e
  | .ok i => if h : w.Holds i.toInt then .ok ⟨i.toInt, h⟩ else .error (.outOfRange i.toInt w.name)

/-- The double of a value. -/
def decodeDouble : Value → Except DecodeFault Double
  | .real x => .ok x
  | .int i => .ok (Double.ofInt i.toInt)
  | v => refuse "real" v

/-- The bool of a value: an integer is true when it is not zero. -/
def decodeBool : Value → Except DecodeFault Bool
  | .bool b => .ok b
  | .int i => .ok (i != 0)
  | v => refuse "bool" v

/-- The text of a value. -/
def decodeText : Value → Except DecodeFault String
  | .text s => .ok s
  | v => refuse "text" v

/-- The bytes of a value. -/
def decodeBytes : Value → Except DecodeFault (List UInt8)
  | .blob bs => .ok bs
  | .text s => .ok (Utf8.encode s)
  | v => refuse "blob" v

/-- The date of a value. -/
def decodeDate : Value → Except DecodeFault Date
  | .date d => .ok d
  | .timestamp t => .ok t.date
  | .text s => (Date.read s).mapError .calendar
  | v => refuse "date" v

/-- The time of a value. -/
def decodeTime : Value → Except DecodeFault Time
  | .time t => .ok t
  | .text s => (Time.read s).mapError .calendar
  | v => refuse "time" v

/-- The timestamp of a value. -/
def decodeTimestamp : Value → Except DecodeFault Timestamp
  | .timestamp t => .ok t
  | .text s => (Timestamp.read s).mapError .calendar
  | v => refuse "timestamp" v

/-- The UUID of a value. -/
def decodeUuid : Value → Except DecodeFault Uuid
  | .uuid u => .ok u
  | .text s => (Uuid.read s).mapError .uuid
  | .blob bs => (Uuid.ofBlob bs).mapError .uuid
  | v => refuse "uuid" v

/-- The JSON of a value. -/
def decodeJson : Value → Except DecodeFault Json
  | .json j => .ok j
  | .text s =>
    match Json.parse? s with
    | some j => .ok j
    | none => .error .json
  | v => refuse "json" v

/-- The element of a host type that a value stands for. -/
def decodeValue : (t : HostType) → Value → Except DecodeFault t.Carrier
  | .int w, v => decodeWidth w v
  | .single, v => (decodeDouble v).map Double.toSingle
  | .double, v => decodeDouble v
  | .bool, v => decodeBool v
  | .text, v => decodeText v
  | .bytes, v => decodeBytes v
  | .date, v => decodeDate v
  | .time, v => decodeTime v
  | .timestamp, v => decodeTimestamp v
  | .uuid, v => decodeUuid v
  | .json, v => decodeJson v
  | .value, v => .ok v

/-- The element that a cell stands for; a null stands for none. -/
def decode (t : HostType) (column : String) : Option Value → Except SqlError t.Carrier
  | none => .error (.decode column .unexpectedNull)
  | some v => (t.decodeValue v).mapError (.decode column)

/-- The element that a cell stands for, if it is not null. -/
def decodeOption (t : HostType) (column : String) :
    Option Value → Except SqlError (Option t.Carrier)
  | none => .ok none
  | some v => (t.decode column (some v)).map some

/-! ### Values of host types -/

/-- The value of an element; integers of 64 unsigned bits have none. -/
def toValue? : (t : HostType) → t.Carrier → Option Value
  | .int .u64, _ => none
  | .int _, i => some (.int (Int64.ofInt i.val))
  | .single, x => some (.real (Single.toDouble x))
  | .double, x => some (.real x)
  | .bool, b => some (.bool b)
  | .text, s => some (.text s)
  | .bytes, bs => some (.blob bs)
  | .date, d => some (.date d)
  | .time, t => some (.time t)
  | .timestamp, t => some (.timestamp t)
  | .uuid, u => some (.uuid u)
  | .json, j => some (.json j)
  | .value, v => some v

/-- The value that a column of a host type writes for a value of a narrower type: bools widen to
numbers, integers to floats, dates to midnight, UUIDs to text or bytes, text to bytes, and in a
column of JSON every value becomes the payload that tagged data writes for it. -/
def accept : HostType → Value → Value
  | .int _, .bool b => .int (if b then 1 else 0)
  | .single, .bool b => .real (Double.ofInt (if b then 1 else 0))
  | .double, .bool b => .real (Double.ofInt (if b then 1 else 0))
  | .single, .int i => .real (Double.ofInt i.toInt)
  | .double, .int i => .real (Double.ofInt i.toInt)
  | .bytes, .text s => .blob (Utf8.encode s)
  | .bytes, .uuid u => .blob u.bytes
  | .text, .uuid u => .text u.text
  | .json, v => .json v.tagged.2
  | .timestamp, .date d => .timestamp ⟨d, .midnight⟩
  | .date, .timestamp t => .date t.date
  | _, v => v

end HostType

end BoundSql
