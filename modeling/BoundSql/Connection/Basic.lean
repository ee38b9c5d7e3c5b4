import BoundSql.Connection.Action
import BoundSql.Value.HostType

/-! # Connections

A connection prepares statements, and a prepared statement binds parameters and runs, for its effect
or for its rows.  The state of the connection and of the statement are two types; a statement works
on both.

Rows are handed to a visitor, one after the other.  A visitor accepts or refuses each row and may
keep a state of its own from one row to the next.  A query should end with the first row that is
refused (`Cursor.Stops`), but that is for the connection to decide.

`Machine` is a database as a step machine: it decides the outcome of every call, and hands out the
rows of a query through a cursor.  `Machine.connection` lets callers talk to it: every call leaves a
note before it takes effect, and so does every row that is handed over.
-/

namespace BoundSql

/-- What a caller makes of a row, or why it refuses it.  `ω` is what the caller keeps in mind from
one row to the next. -/
abbrev RowMap (ω α : Type) : Type := Row → ω → Except SqlError α × ω

/-- A visitor accepts or refuses rows. -/
abbrev Visitor (ω : Type) : Type := RowMap ω Unit

namespace RowMap

variable {ω α : Type}

/-- A row map that keeps nothing in mind. -/
def ofFun (f : Row → Except SqlError α) : RowMap Unit α :=
  fun r w => (f r, w)

/-- The visitor that keeps what is made of the rows it accepts. -/
def keeping (map : RowMap ω α) : Visitor (ω × List α) := fun r (w, found) =>
  match map r w with
  | (.ok x, w) => (.ok (), (w, found ++ [x]))
  | (.error e, w) => (.error e, (w, found))

end RowMap

/-- What can be done with a connection.  `σ` is the state of the connection and `τ` that of a
prepared statement. -/
structure Connection (σ τ : Type) : Type 1 where
  /-- The clock, in nanoseconds. -/
  now : σ → Nat
  /-- Prepare a statement. -/
  prepare : String → Action σ τ
  /-- Bind a value at an index, counted from one. -/
  bind : Nat → Value → Action (σ × τ) Unit
  /-- Bind a null of a type at an index, counted from one. -/
  bindNull : Nat → SqlType → Action (σ × τ) Unit
  /-- Run for the effect; the result is the number of affected rows. -/
  update : Action (σ × τ) Nat
  /-- Run for the rows, and hand each of them to a visitor. -/
  query : {ω : Type} → Visitor ω → Action ((σ × τ) × ω) Unit

namespace Connection

variable {σ τ ω α β : Type}

/-- Run for the rows with a visitor that has one more part to its state, which starts as given and
is the result. -/
def gather (c : Connection σ τ) (visit : Visitor (ω × β)) (start : β) :
    Action ((σ × τ) × ω) β := fun (s, w) =>
  let out := c.query visit (s, (w, start))
  ⟨out.result.map fun () => out.state.2.2, (out.state.1, out.state.2.1), out.trace⟩

/-- Run for the rows, and map each of them. -/
def collect (c : Connection σ τ) (map : RowMap ω α) : Action ((σ × τ) × ω) (List α) :=
  c.gather map.keeping []

end Connection

/-- What a query hands out: rows one by one, each followed by what the visitor's answer leads to,
and in the end how the query ends. -/
inductive Cursor (ρ : Type) where
  | ended (result : Except SqlError Unit) (s : ρ)
  | row (r : Row) (next : Except SqlError Unit → Cursor ρ)

namespace Cursor

variable {ρ ω : Type}

/-- The cursor over rows that ends with the first refusal, and in one and the same state wherever it
ends. -/
def ofRows (rows : List Row) (ending : Except SqlError Unit) (s : ρ) : Cursor ρ :=
  rows.foldr (fun r rest => .row r fun
    | .ok () => rest
    | .error e => .ended (.error e) s) (.ended ending s)

/-- A cursor that ends with the first refusal and hands it on. -/
def Stops : Cursor ρ → Prop
  | .ended _ _ => True
  | .row _ next => (∀ e, ∃ s, next (.error e) = .ended (.error e) s) ∧ (next (.ok ())).Stops

/-- Hand rows to a visitor, and its answers to the cursor; every row leaves a note. -/
def visit (visitor : Visitor ω) : Cursor ρ → ω → Outcome (ρ × ω) Unit
  | .ended result s, w => ⟨result, (s, w), []⟩
  | .row r next, w =>
    let (answer, w) := visitor r w
    let out := (next answer).visit visitor w
    ⟨out.result, out.state, .visited r :: out.trace⟩

theorem stops_ofRows (rows : List Row) (ending : Except SqlError Unit) (s : ρ) :
    (ofRows rows ending s).Stops := by
  induction rows with
  | nil => trivial
  | cons r rows ih => exact ⟨fun e => ⟨s, rfl⟩, ih⟩

end Cursor

/-- A database as a step machine. -/
structure Machine (σ τ : Type) where
  now : σ → Nat
  prepare : String → σ → Except SqlError τ × σ
  bind : Nat → Param → σ × τ → Except SqlError Unit × (σ × τ)
  update : σ × τ → Except SqlError Nat × (σ × τ)
  query : σ × τ → Cursor (σ × τ)

namespace Machine

variable {σ τ ω : Type}

/-- A step of a machine as an action that leaves the note of its call. -/
def perform {ρ α : Type} (c : Call) (step : ρ → Except SqlError α × ρ) : Action ρ α := fun s =>
  let (result, s) := step s
  ⟨result, s, [.called c]⟩

/-- Run a query and hand its rows to a visitor. -/
def runQuery (m : Machine σ τ) (visitor : Visitor ω) : Action ((σ × τ) × ω) Unit := fun (s, w) =>
  let out := (m.query s).visit visitor w
  ⟨out.result, out.state, .called .query :: out.trace⟩

/-- The connection to a machine. -/
def connection (m : Machine σ τ) : Connection σ τ where
  now := m.now
  prepare sql := perform (.prepare sql) (m.prepare sql)
  bind index v := perform (.bind index (.value v)) (m.bind index (.value v))
  bindNull index t := perform (.bind index (.null t)) (m.bind index (.null t))
  update := perform .update m.update
  query := m.runQuery

theorem connection_prepare {m : Machine σ τ} {sql : String} {x y : σ} {result : Except SqlError τ}
    (answer : m.prepare sql x = (result, y)) :
    m.connection.prepare sql x = ⟨result, y, [.called (.prepare sql)]⟩ := by
  simp only [connection, perform, answer]

theorem connection_bind {m : Machine σ τ} {index : Nat} {v : Value} {x y : σ × τ}
    {result : Except SqlError Unit} (answer : m.bind index (.value v) x = (result, y)) :
    m.connection.bind index v x = ⟨result, y, [.called (.bind index (.value v))]⟩ := by
  simp only [connection, perform, answer]

theorem connection_bindNull {m : Machine σ τ} {index : Nat} {t : SqlType} {x y : σ × τ}
    {result : Except SqlError Unit} (answer : m.bind index (.null t) x = (result, y)) :
    m.connection.bindNull index t x = ⟨result, y, [.called (.bind index (.null t))]⟩ := by
  simp only [connection, perform, answer]

end Machine

/-- The element of a host type in a column of a row. -/
def Row.get (r : Row) (t : HostType) (column : String) : Except SqlError t.Carrier :=
  match r.cell column with
  | .error e => .error e
  | .ok v => t.decode column v

/-- The element of a host type in a column of a row, if the cell is not null. -/
def Row.getOption (r : Row) (t : HostType) (column : String) :
    Except SqlError (Option t.Carrier) :=
  match r.cell column with
  | .error e => .error e
  | .ok v => t.decodeOption column v

end BoundSql
