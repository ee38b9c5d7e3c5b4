import BoundSql.Statement.Clause
import BoundSql.Statement.Kind

/-! # Stages

A statement grows clause by clause, and the stage that it has reached says which clauses may follow.
Four first clauses are possible, and from there on the order is fixed: optional clauses may be left
out but not moved.  A stage is executable when every mandatory clause is present.
-/

namespace BoundSql

/-- How far a statement has grown. -/
inductive Stage where
  | selectQuery
  | selectFrom
  | selectWhere
  | selectGroupBy
  | selectOrderBy
  | insertQuery
  | insertInto
  | insertValues
  | updateQuery
  | updateSet
  | updateWhere
  | deleteQuery
  | deleteFrom
  | deleteWhere
  deriving DecidableEq, Repr

namespace Stage

/-- The name of a stage. -/
def name : Stage → String
  | .selectQuery => "SelectQuery"
  | .selectFrom => "SelectFrom"
  | .selectWhere => "SelectWhere"
  | .selectGroupBy => "SelectGroupBy"
  | .selectOrderBy => "SelectOrderBy"
  | .insertQuery => "InsertQuery"
  | .insertInto => "InsertInto"
  | .insertValues => "InsertValues"
  | .updateQuery => "UpdateQuery"
  | .updateSet => "UpdateSet"
  | .updateWhere => "UpdateWhere"
  | .deleteQuery => "DeleteQuery"
  | .deleteFrom => "DeleteFrom"
  | .deleteWhere => "DeleteWhere"

/-- The stage that a first clause reaches. -/
def first? : Clause.Verb → Option Stage
  | .select => some .selectQuery
  | .insert => some .insertQuery
  | .update => some .updateQuery
  | .delete => some .deleteQuery
  | _ => none

/-- The stage that one more clause reaches. -/
def next? : Stage → Clause.Verb → Option Stage
  | .selectQuery, .fromTables => some .selectFrom
  | .selectFrom, .filtered => some .selectWhere
  | .selectFrom, .groupBy => some .selectGroupBy
  | .selectFrom, .orderBy => some .selectOrderBy
  | .selectWhere, .groupBy => some .selectGroupBy
  | .selectWhere, .orderBy => some .selectOrderBy
  | .selectGroupBy, .orderBy => some .selectOrderBy
  | .insertQuery, .into => some .insertInto
  | .insertInto, .values => some .insertValues
  | .updateQuery, .assign => some .updateSet
  | .updateSet, .filtered => some .updateWhere
  | .deleteQuery, .fromTable => some .deleteFrom
  | .deleteFrom, .filtered => some .deleteWhere
  | _, _ => none

/-- What a statement at this stage does. -/
def kind : Stage → Kind
  | .selectQuery | .selectFrom | .selectWhere | .selectGroupBy | .selectOrderBy => .select
  | .insertQuery | .insertInto | .insertValues => .insert
  | .updateQuery | .updateSet | .updateWhere => .update
  | .deleteQuery | .deleteFrom | .deleteWhere => .delete

/-- Whether a statement at this stage can be run. -/
def executable : Stage → Bool
  | .selectQuery | .insertQuery | .insertInto | .updateQuery | .deleteQuery => false
  | _ => true

/-- Whether a statement of this kind is run for its rows. -/
def returnsRows (s : Stage) : Bool :=
  s.kind == .select

end Stage

end BoundSql
