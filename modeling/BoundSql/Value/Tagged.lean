import BoundSql.Json.Parser
import BoundSql.Value.Basic

/-! # Tagged data

A value as JSON is an object with one member, named for the kind of the value.  Bytes are an array
of small integers; dates, times, timestamps and UUIDs are strings; a double that is not finite is
null, so it does not read back.

The reader takes an object with exactly one member.  The payload of a JSON value may nest 126 deep,
because the object around it counts.
-/

namespace BoundSql.Value

/-- The JSON integer of a 64-bit integer. -/
def jsonOfInt (i : Int64) : Json :=
  match WideInt.ofInt? i.toInt with
  | some w => .integer w
  | none => .null

/-- The JSON integer of a byte. -/
def jsonOfByte (b : UInt8) : Json :=
  match WideInt.ofInt? b.toNat with
  | some w => .integer w
  | none => .null

/-- The tag and the payload of a value. -/
def tagged : Value → String × Json
  | .bool b => ("Bool", .bool b)
  | .int i => ("Int", jsonOfInt i)
  | .real x => ("Real", .ofDouble x)
  | .text s => ("Text", .text s)
  | .blob bytes => ("Blob", .array (bytes.map jsonOfByte))
  | .date d => ("Date", .text d.text)
  | .time t => ("Time", .text t.text)
  | .timestamp t => ("Timestamp", .text t.joinedText)
  | .uuid u => ("Uuid", .text u.text)
  | .json j => ("Json", j)

/-- The value as a JSON object. -/
def toJson (v : Value) : Json :=
  .object [v.tagged]

/-- The value as JSON text. -/
def taggedText (v : Value) : String :=
  v.toJson.compact

/-- The byte of a JSON integer. -/
def byteOfJson? : Json → Option UInt8
  | .integer i => if 0 ≤ i.val ∧ i.val < 256 then some (UInt8.ofNat i.val.toNat) else none
  | _ => none

/-- The double of a JSON number. -/
def doubleOfJson? : Json → Option Double
  | .integer i => some (Double.ofInt i.val)
  | .double x => some x
  | _ => none

/-- The value with a tag and a payload. -/
def ofTagged? : String → Json → Option Value
  | "Bool", .bool b => some (.bool b)
  | "Int", .integer i => (int64? i.val).map .int
  | "Real", j => (doubleOfJson? j).map .real
  | "Text", .text s => some (.text s)
  | "Blob", .array items => (items.mapM byteOfJson?).map .blob
  | "Date", .text s => (Date.readLoose s).toOption.map .date
  | "Time", .text s => (Time.readLoose s).toOption.map .time
  | "Timestamp", .text s => (Timestamp.readLoose s).toOption.map .timestamp
  | "Uuid", .text s => (Uuid.read s).toOption.map .uuid
  | "Json", j => some (.json j)
  | _, _ => none

/-- Read tagged JSON text. -/
def ofTaggedText? (s : String) : Option Value := do
  let (members, rest) ←
    Json.readObject? (Json.readValue? (Json.depthLimit - 1)) (Json.skip s.toList)
  match members, Json.skip rest with
  | [(tag, payload)], [] => ofTagged? tag payload
  | _, _ => none

end BoundSql.Value
