import BoundSql.Error
import BoundSql.Monitor.Event
import BoundSql.SqlType

/-! # Log entries

What running statements and logging monitors write to the log.  An entry says what happened; its
level, its target and its fields follow from that.
-/

namespace BoundSql

/-- The weight of a log entry. -/
inductive Level where
  | error
  | warn
  | info
  | debug
  | trace
  deriving DecidableEq, Repr

/-- The word for a level. -/
def Level.text : Level → String
  | .error => "ERROR"
  | .warn => "WARN"
  | .info => "INFO"
  | .debug => "DEBUG"
  | .trace => "TRACE"

/-- How a statement is run: for its rows or for its effect. -/
inductive RunMode where
  | query
  | statement
  deriving DecidableEq, Repr

/-- The word for how a statement is run. -/
def RunMode.word : RunMode → String
  | .query => "query"
  | .statement => "statement"

/-- The name of the count that a run ends with. -/
def RunMode.countField : RunMode → String
  | .query => "rows"
  | .statement => "affected"

/-- An entry of the log. -/
inductive LogEntry where
  /-- A statement is about to be run. -/
  | executing (mode : RunMode) (kind : Kind) (paramCount : Nat) (sql : String)
  /-- A null is about to be bound. -/
  | bindingNull (index : Nat) (type : SqlType)
  /-- A statement was run and gave so many rows, or affected so many. -/
  | finished (mode : RunMode) (count : Nat)
  /-- A statement failed. -/
  | failed (mode : RunMode) (error : SqlError) (sql : String)
  /-- A monitor saw a statement complete. -/
  | completed (level : Level) (c : Monitor.Context) (d : Duration) (r : Monitor.Result)
      (sql : String)
  /-- A monitor saw a slow statement. -/
  | slow (c : Monitor.Context) (d : Duration) (sql : String)
  deriving DecidableEq, Repr

namespace LogEntry

/-- The weight of an entry. -/
def level : LogEntry → Level
  | .executing .. => .debug
  | .bindingNull .. => .trace
  | .finished .. => .debug
  | .failed .. => .warn
  | .completed level .. => level
  | .slow .. => .warn

/-- The target of entries about running statements. -/
def sqlTarget : String := "sqlstage.sql"

/-- The target of entries of monitors. -/
def monitorTarget : String := "sqlstage.monitor"

/-- Where an entry is addressed to. -/
def target : LogEntry → String
  | .executing .. | .bindingNull .. | .finished .. | .failed .. => sqlTarget
  | .completed .. | .slow .. => monitorTarget

/-- The name of the field that holds the sentence of an entry. -/
def messageField : String := "message"

/-- The fields of an entry, each with its text. -/
def fields : LogEntry → List (String × String)
  | .executing mode kind paramCount sql =>
    [("query_type", kind.text), ("param_count", Decimal.natural paramCount), ("sql", sql),
      (messageField, "executing " ++ mode.word)]
  | .bindingNull index type =>
    [("index", Decimal.natural index), ("sql_type", type.name),
      (messageField, "binding typed null")]
  | .finished mode count =>
    [(mode.countField, Decimal.natural count), (messageField, mode.word ++ " finished")]
  | .failed mode error sql =>
    [("error", error.text), ("sql", sql), (messageField, mode.word ++ " failed")]
  | .completed _ c d r sql =>
    [("query_type", c.kind.text), ("tag", c.tag?.getD "-"),
      ("param_count", Decimal.natural c.paramCount),
      ("duration_us", Decimal.natural d.microsWord), ("result", r.display), ("sql", sql),
      (messageField, "statement completed")]
  | .slow c d sql =>
    [("query_type", c.kind.text), ("duration_us", Decimal.natural d.microsWord), ("sql", sql),
      (messageField, "slow query")]

end LogEntry

end BoundSql
