import BoundSql.Column

/-! # Parameters

What a connection binds to a placeholder: a value, or a null with the declared type of its column.
-/

namespace BoundSql

/-- A bound parameter. -/
inductive Param where
  | value (v : Value)
  | null (t : SqlType)

namespace Param

/-- The value, if the parameter is not null. -/
def value? : Param → Option Value
  | .value v => some v
  | .null _ => none

/-- Whether the parameter is null. -/
def isNull : Param → Bool
  | .value _ => false
  | .null _ => true

/-- The type of the value, or the declared type of a null. -/
def sqlType : Param → SqlType
  | .value v => v.sqlType
  | .null t => t

/-- The text that shows a parameter. -/
def display : Param → String
  | .value v => v.display
  | .null .null => "NULL"
  | .null t => "NULL::" ++ t.name

end Param

/-- What is bound for a column that is written. -/
def ColumnValue.param (cv : ColumnValue) : Param :=
  match cv.value? with
  | some v => .value v
  | none => .null cv.type

end BoundSql
