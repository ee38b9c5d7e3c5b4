import BoundSql.Name

/-! # Tables

A table has a name and perhaps an alias.  Aliasing gives another table and leaves the first as it
was.  Columns are qualified by the alias if there is one, and by the name otherwise.
-/

namespace BoundSql

/-- A table in a statement. -/
structure Table where
  name : String
  alias? : Option String := none
  deriving DecidableEq, Repr

namespace Table

/-- The table of a name given at run time. -/
def ofName (name : String) : Except SqlError Table :=
  match Name.fault? name with
  | some fault => .error (.invalidArgument (.name .table fault))
  | none => .ok { name }

/-- The table of a fixed name. -/
def ofFixedName (name : String) : Except NameFault Table :=
  match Name.fixedFault? name with
  | some fault => .error fault
  | none => .ok { name }

/-- The table under an alias. -/
def withAlias (t : Table) (given : String) : Except SqlError Table :=
  match Name.checkAlias given with
  | .error fault => .error (.invalidArgument (.badAlias fault))
  | .ok a => .ok { t with alias? := some a }

/-- What stands before the dot of a qualified column. -/
def qualifier (t : Table) : String :=
  t.alias?.getD t.name

/-- A name with its alias, as an item of a list. -/
def aliased (name : String) : Option String → String
  | some a => name ++ " AS " ++ a
  | none => name

/-- The table as an item of a FROM list. -/
def item (t : Table) : String :=
  aliased t.name t.alias?

end Table

end BoundSql
