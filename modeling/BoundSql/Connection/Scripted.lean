import BoundSql.Connection.Basic

/-! # Scripted connections

A connection that plays a script: it says which calls fail and with what message, which rows a query
gives, how many rows a statement affects, and how long a run takes.  Its state is its clock, which
moves on by at least a nanosecond when a statement is prepared or run; its prepared statements have
no state.
-/

namespace BoundSql

/-- The script of a connection. -/
structure Script where
  /-- Preparing fails. -/
  prepareError? : Option String := none
  /-- Binding at an index fails. -/
  bindError? : Option (Nat × String) := none
  /-- Running fails. -/
  runError? : Option String := none
  /-- A query fails instead of giving the row with this number, counted from zero. -/
  rowError? : Option (Nat × String) := none
  /-- The rows of a query, each a list of cells. -/
  rows : List (List (String × Option Value)) := []
  /-- The number of rows that a statement affects. -/
  affected : Nat := 0
  /-- How long a run takes, in nanoseconds. -/
  delay : Nat := 0

namespace Script

/-- The row of a list of cells; of cells with one name the first counts. -/
def row (cells : List (String × Option Value)) : Row where
  cell column :=
    match cells.find? fun c => c.1 == column with
    | some c => .ok c.2
    | none => .error (.decode column .noSuchColumn)

/-- The rows up to the one that fails, and how the query ends. -/
def cursor {ρ : Type} (s : Script) (after : ρ) : Cursor ρ :=
  let rows := s.rows.map row
  match s.rowError? with
  | some (n, message) =>
    if n < rows.length then .ofRows (rows.take n) (.error (.connection message)) after
    else .ofRows rows (.ok ()) after
  | none => .ofRows rows (.ok ()) after

/-- The clock after a run. -/
def afterRun (s : Script) (clock : Nat × Unit) : Nat × Unit :=
  (clock.1 + s.delay + 1, clock.2)

/-- The machine that plays a script. -/
def machine (s : Script) : Machine Nat Unit where
  now clock := clock
  prepare _ clock :=
    match s.prepareError? with
    | some message => (.error (.connection message), clock + 1)
    | none => (.ok (), clock + 1)
  bind index _ clock :=
    match s.bindError? with
    | some (place, message) =>
      if index = place then (.error (.connection message), clock) else (.ok (), clock)
    | none => (.ok (), clock)
  update clock :=
    match s.runError? with
    | some message => (.error (.other message), s.afterRun clock)
    | none => (.ok s.affected, s.afterRun clock)
  query clock :=
    match s.runError? with
    | some message => .ended (.error (.other message)) (s.afterRun clock)
    | none => s.cursor (s.afterRun clock)

/-- The connection that plays a script. -/
def connection (s : Script) : Connection Nat Unit :=
  s.machine.connection

end Script

end BoundSql
