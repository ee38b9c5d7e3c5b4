import BoundSql.Table
import BoundSql.Value.Basic

/-! # Columns

A column has a name, a declared type, and perhaps an alias and a sort order.  Every operation gives
another column: qualifying and aggregating wrap the name, aliasing sets the alias, sorting sets the
order, and nothing else changes.
-/

namespace BoundSql

/-- A sort direction. -/
inductive Order where
  | ascending
  | descending
  deriving DecidableEq, Repr

/-- The keyword of a sort direction. -/
def Order.keyword : Order → String
  | .ascending => "ASC"
  | .descending => "DESC"

/-- A column in a statement. -/
structure Column where
  name : String
  type : SqlType := .null
  alias? : Option String := none
  order? : Option Order := none
  deriving DecidableEq, Repr

namespace Column

/-- Every column, `*`. -/
def all : Column where
  name := "*"

/-- The column of a name given at run time. -/
def ofName (name : String) (type : SqlType) : Except SqlError Column :=
  match Name.fault? name with
  | some fault => .error (.invalidArgument (.name .column fault))
  | none => .ok { name, type }

/-- The column of a fixed name. -/
def ofFixedName (name : String) (type : SqlType) : Except NameFault Column :=
  match Name.fixedFault? name with
  | some fault => .error fault
  | none => .ok { name, type }

/-- The column under an alias. -/
def withAlias (c : Column) (given : String) : Except SqlError Column :=
  match Name.checkAlias given with
  | .error fault => .error (.invalidArgument (.badAlias fault))
  | .ok a => .ok { c with alias? := some a }

/-- The column sorted in a direction. -/
def withOrder (c : Column) (o : Order) : Column :=
  { c with order? := some o }

/-- What is put around the name of a column. -/
inductive Wrapper where
  | qualified (t : Table)
  | min
  | max
  | sum
  | avg
  | count
  | distinct
  | countDistinct
  deriving DecidableEq, Repr

/-- The text before and after a wrapped name. -/
def Wrapper.ends : Wrapper → String × String
  | .qualified t => (t.qualifier ++ ".", "")
  | .min => ("MIN(", ")")
  | .max => ("MAX(", ")")
  | .sum => ("SUM(", ")")
  | .avg => ("AVG(", ")")
  | .count => ("COUNT(", ")")
  | .distinct => ("DISTINCT ", "")
  | .countDistinct => ("COUNT(DISTINCT ", ")")

/-- The column with its name wrapped. -/
def wrap (c : Column) (w : Wrapper) : Column :=
  { c with name := w.ends.1 ++ c.name ++ w.ends.2 }

/-- An operation on columns. -/
inductive Operation where
  | wrap (w : Wrapper)
  | underAlias (given : String)
  | order (o : Order)
  | copy
  deriving DecidableEq, Repr

/-- The column after an operation. -/
def apply (c : Column) : Operation → Except SqlError Column
  | .wrap w => .ok (c.wrap w)
  | .underAlias given => c.withAlias given
  | .order o => .ok (c.withOrder o)
  | .copy => .ok c

/-- The column after a chain of operations, up to the first that fails. -/
def applyAll (c : Column) : List Operation → Except SqlError Column
  | [] => .ok c
  | op :: ops =>
    match c.apply op with
    | .error e => .error e
    | .ok c => c.applyAll ops

/-- The column as an item of a SELECT list. -/
def selectItem (c : Column) : String :=
  Table.aliased c.name c.alias?

/-- The column as an item of an ORDER BY list. -/
def orderItem (c : Column) : String :=
  match c.order? with
  | some o => c.name ++ " " ++ o.keyword
  | none => c.name

end Column

/-- A column with what is written to it; `none` writes a null. -/
structure ColumnValue where
  name : String
  type : SqlType
  value? : Option Value

namespace ColumnValue

/-- Write a value or a null to a column. -/
def of (c : Column) (value? : Option Value) : ColumnValue where
  name := c.name
  type := c.type
  value? := value?

/-- Equality of what is written. -/
def equal (a b : ColumnValue) : Bool :=
  a.name == b.name && a.type == b.type && a.value? == b.value?

instance : BEq ColumnValue := ⟨equal⟩

end ColumnValue

end BoundSql
