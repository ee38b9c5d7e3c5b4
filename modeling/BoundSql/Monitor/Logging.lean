import BoundSql.Log

/-! # Logging monitors

A logging monitor writes one entry for every completed statement that took long enough, at its
level, and one for every slow statement, always as a warning.  The statement text is cut to a limit,
with three dots behind it.
-/

namespace BoundSql.Monitor

/-- The settings of a logging monitor. -/
structure Logging where
  level : Level := .debug
  /-- Completed statements that took less are left out. -/
  minDuration? : Option Duration := none
  /-- The greatest length in bytes of a statement text that is written whole. -/
  maxSqlLength? : Option Nat := some 200
  deriving DecidableEq, Repr

namespace Logging

/-- The settings of a new logging monitor. -/
def default : Logging := {}

/-- The statement text as it is written. -/
def shown (l : Logging) (sql : String) : String :=
  match l.maxSqlLength? with
  | some limit => Utf8.cutWithDots sql limit
  | none => sql

/-- Whether a completed statement is left out. -/
def leavesOut (l : Logging) (d : Duration) : Bool :=
  match l.minDuration? with
  | some least => decide (d.nanos < least.nanos)
  | none => false

/-- What is written for an event. -/
def entries (l : Logging) : Event → List LogEntry
  | .started _ => []
  | .completed c d r =>
    if l.leavesOut d then [] else [.completed l.level c d r (l.shown c.sql)]
  | .slow c d => [.slow c d (l.shown c.sql)]

end Logging

end BoundSql.Monitor
