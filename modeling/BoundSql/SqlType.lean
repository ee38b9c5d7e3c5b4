/-! # Declared SQL types

The type that a column declares.  It matters when a null is bound: a null carries the type of its
column, and a column without a declared type has the type `null`.
-/

namespace BoundSql

/-- The type of a column; `null` stands for no known type. -/
inductive SqlType where
  | null
  | boolean
  | smallInt
  | integer
  | bigInt
  | real
  | double
  | decimal
  | char
  | varchar
  | text
  | date
  | time
  | timestamp
  | blob
  | uuid
  | json
  deriving DecidableEq, Repr

namespace SqlType

/-- Every type, in the order of declaration. -/
def all : List SqlType :=
  [.null, .boolean, .smallInt, .integer, .bigInt, .real, .double, .decimal, .char, .varchar, .text,
    .date, .time, .timestamp, .blob, .uuid, .json]

/-- The name of the type in mixed case, as tagged data writes it. -/
def tag : SqlType → String
  | .null => "Null"
  | .boolean => "Boolean"
  | .smallInt => "SmallInt"
  | .integer => "Integer"
  | .bigInt => "BigInt"
  | .real => "Real"
  | .double => "Double"
  | .decimal => "Decimal"
  | .char => "Char"
  | .varchar => "Varchar"
  | .text => "Text"
  | .date => "Date"
  | .time => "Time"
  | .timestamp => "Timestamp"
  | .blob => "Blob"
  | .uuid => "Uuid"
  | .json => "Json"

/-- The SQL spelling of the type. -/
def name : SqlType → String
  | .null => "NULL"
  | .boolean => "BOOLEAN"
  | .smallInt => "SMALLINT"
  | .integer => "INTEGER"
  | .bigInt => "BIGINT"
  | .real => "REAL"
  | .double => "DOUBLE"
  | .decimal => "DECIMAL"
  | .char => "CHAR"
  | .varchar => "VARCHAR"
  | .text => "TEXT"
  | .date => "DATE"
  | .time => "TIME"
  | .timestamp => "TIMESTAMP"
  | .blob => "BLOB"
  | .uuid => "UUID"
  | .json => "JSON"

/-- The type with a given tag. -/
def ofTag? (s : String) : Option SqlType :=
  all.find? fun t => t.tag == s

/-- Whether no type is known. -/
def isUntyped (t : SqlType) : Bool :=
  t == .null

instance : Inhabited SqlType := ⟨.null⟩

end SqlType

end BoundSql
