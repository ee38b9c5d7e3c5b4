import BoundSql.Filter
import BoundSql.Statement.Param

/-! # Clauses

A statement is a sequence of clauses, and each clause renders by itself.  Most clauses are a keyword
on a line of its own, followed by indented items with a comma at the end of every line but the last.
`INSERT` and `DELETE` open a statement with a bare keyword; the clause that lists values first names
its columns on the line after the table.

A clause that lists items is refused when the list is empty.
-/

namespace BoundSql

/-- A part of a statement. -/
inductive Clause where
  | select (columns : List Column)
  | fromTables (tables : List Table)
  | filtered (f : Filter)
  | groupBy (columns : List Column)
  | orderBy (columns : List Column)
  | insert
  | into (t : Table)
  | values (items : List ColumnValue)
  | update (t : Table)
  | assign (items : List ColumnValue)
  | delete
  | fromTable (t : Table)

namespace Clause

/-- The indentation of items. -/
def indent : String := "    "

/-- Items with a comma at the end of every line but the last. -/
def itemLines (items : List String) : String :=
  indent ++ String.intercalate (",\n" ++ indent) items

/-- A keyword line and item lines. -/
def block (keyword : String) (items : List String) : String :=
  keyword ++ "\n" ++ itemLines items ++ "\n"

/-- Items in parentheses on one line. -/
def inParentheses (items : List String) : String :=
  "(" ++ String.intercalate ", " items ++ ")"

/-- The text of a clause. -/
def text : Clause → String
  | .select columns => block "SELECT" (columns.map Column.selectItem)
  | .fromTables tables => block "FROM" (tables.map Table.item)
  | .filtered f => block "WHERE" [f.condition]
  | .groupBy columns => block "GROUP BY" (columns.map Column.name)
  | .orderBy columns => block "ORDER BY" (columns.map Column.orderItem)
  | .insert => "INSERT\n"
  | .into t => block "INTO" [t.name]
  | .values items =>
    indent ++ inParentheses (items.map ColumnValue.name) ++ "\n" ++
      block "VALUES" [inParentheses (items.map fun _ => "?")]
  | .update t => block "UPDATE" [t.name]
  | .assign items => block "SET" (items.map fun cv => cv.name ++ " = ?")
  | .delete => "DELETE\n"
  | .fromTable t => block "FROM" [t.name]

/-- The parameters of a clause. -/
def params : Clause → List Param
  | .filtered f => f.params.map .value
  | .values items => items.map ColumnValue.param
  | .assign items => items.map ColumnValue.param
  | _ => []

/-- Refuse an empty list. -/
def requireItems {α : Type} (items : List α) (clause item : String) : Option ArgumentFault :=
  if items.isEmpty then some (.noItems clause item) else none

/-- Why a clause is refused. -/
def fault? : Clause → Option ArgumentFault
  | .select columns => requireItems columns "SELECT" "column"
  | .fromTables tables => requireItems tables "FROM" "table"
  | .groupBy columns => requireItems columns "GROUP BY" "column"
  | .orderBy columns => requireItems columns "ORDER BY" "column"
  | .values items => requireItems items "VALUES" "column value"
  | .assign items => requireItems items "SET" "column value"
  | _ => none

/-- What a clause is, apart from its items. -/
inductive Verb where
  | select
  | fromTables
  | filtered
  | groupBy
  | orderBy
  | insert
  | into
  | values
  | update
  | assign
  | delete
  | fromTable
  deriving DecidableEq, Repr

/-- The verb of a clause. -/
def verb : Clause → Verb
  | .select _ => .select
  | .fromTables _ => .fromTables
  | .filtered _ => .filtered
  | .groupBy _ => .groupBy
  | .orderBy _ => .orderBy
  | .insert => .insert
  | .into _ => .into
  | .values _ => .values
  | .update _ => .update
  | .assign _ => .assign
  | .delete => .delete
  | .fromTable _ => .fromTable

end Clause

end BoundSql
