import BoundSql.Connection.Basic
import BoundSql.Statement.Builder

/-! # Running statements

Running a statement prepares its text, binds its parameters to the indices 1, 2, … in order, and
runs it once, for its rows or for its effect.  The first failure ends it and is its result.

The log gets an entry before anything else, one before every null that is bound, and one at the end,
which is a warning when the statement failed.
-/

namespace BoundSql

namespace Statement

variable {σ τ ω : Type}

/-- Leave an entry in the log. -/
def log {ρ : Type} (entry : LogEntry) : Action ρ Unit :=
  .note [.logged entry]

/-- Bind one parameter; a null is logged first. -/
def bindParam (c : Connection σ τ) (index : Nat) : Param → Action (σ × τ) Unit
  | .value v => c.bind index v
  | .null t => do
    log (.bindingNull index t)
    c.bindNull index t

/-- Bind parameters from an index on, up to the first failure. -/
def bindFrom (c : Connection σ τ) (index : Nat) : List Param → Action (σ × τ) Unit
  | [] => pure ()
  | p :: rest => do
    bindParam c index p
    bindFrom c (index + 1) rest

/-- Go on with a prepared statement, which is dropped at the end. -/
def opened {α : Type} (t : τ) (run : Action ((σ × τ) × ω) α) : Action (σ × ω) α := fun (s, w) =>
  let out := run ((s, t), w)
  ⟨out.result, (out.state.1.1, out.state.2), out.trace⟩

/-- Prepare a statement, bind its parameters and go on with it. -/
def prepared {α : Type} (s : Statement) (c : Connection σ τ) (run : Action ((σ × τ) × ω) α) :
    Action (σ × ω) α := do
  let t ← (c.prepare s.sql).first
  opened t do
    (bindFrom c 1 s.params).first
    run

/-- Run between two log entries; `count` is the number in the last one. -/
def logged {ρ α : Type} (s : Statement) (mode : RunMode) (count : α → Nat) (run : Action ρ α) :
    Action ρ α := do
  log (.executing mode s.kind s.params.length s.sql)
  match ← run.attempt with
  | .ok x => do
    log (.finished mode (count x))
    return x
  | .error e => do
    log (.failed mode e s.sql)
    Action.fail e

/-- Run a statement for its rows, and map each of them. -/
def fetchWith {α : Type} (s : Statement) (c : Connection σ τ) (map : RowMap ω α) :
    Action (σ × ω) (List α) :=
  s.logged .query List.length (s.prepared c (c.collect map))

/-- Run a statement for its rows, and map each of them by a function. -/
def fetch {α : Type} (s : Statement) (c : Connection σ τ) (map : Row → Except SqlError α) :
    Action σ (List α) :=
  (s.fetchWith c (.ofFun map)).within ()

/-- Run a statement for its effect; the result is the number of affected rows. -/
def execute (s : Statement) (c : Connection σ τ) : Action σ Nat :=
  (s.logged .statement id (s.prepared c c.update.first)).within ()

end Statement

end BoundSql
