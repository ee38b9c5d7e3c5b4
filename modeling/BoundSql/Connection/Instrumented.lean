import BoundSql.Connection.Basic
import BoundSql.Monitor.Panel

/-! # Instrumented connections

An instrumented connection wraps another one and tells a monitor about every statement that is run
and every statement that cannot be prepared.  Calls go through unchanged, and the visitor of a query
gets every row; the rows are counted on the way.

A monitor is whatever can receive events (`Listener`).  `Instrumented.connectionTo` reports to any
monitor, and `Instrumented.connection` to a panel of the library's own.

The context of a statement holds its text, cut to a limit, and the greatest index that was bound
successfully.  A run is reported as started, then as completed, and then as slow when a threshold is
set and the clock shows that the run took longer.  A failure to prepare is reported as started and
completed with no parameters, and is never slow.  Nothing is reported while monitoring is off.
-/

namespace BoundSql

/-- The settings of an instrumented connection. -/
structure MonitorConfig where
  /-- A run that takes longer is slow. -/
  slowThreshold? : Option Duration := none
  /-- Whether monitors are told anything. -/
  enabled : Bool := false
  /-- The greatest length in bytes of a statement text that monitors see. -/
  maxSqlLength : Nat := 1024
  deriving DecidableEq, Repr

namespace MonitorConfig

/-- The settings of a new connection. -/
def default : MonitorConfig := {}

/-- Monitoring on. -/
def enable (c : MonitorConfig) : MonitorConfig := { c with enabled := true }

/-- Monitoring off. -/
def disable (c : MonitorConfig) : MonitorConfig := { c with enabled := false }

/-- Runs that take longer than a span are slow. -/
def withThreshold (c : MonitorConfig) (d : Duration) : MonitorConfig :=
  { c with slowThreshold? := some d }

/-- Statement texts are cut to a length in bytes. -/
def withMaxSqlLength (c : MonitorConfig) (length : Nat) : MonitorConfig :=
  { c with maxSqlLength := length }

/-- Whether a run is slow. -/
def isSlow (c : MonitorConfig) (d : Duration) : Bool :=
  match c.slowThreshold? with
  | some threshold => decide (threshold.nanos < d.nanos)
  | none => false

/-- What is told of events: all of them, or none. -/
def told (c : MonitorConfig) (events : List Monitor.Event) : List Monitor.Event :=
  if c.enabled then events else []

theorem told_nil (c : MonitorConfig) : c.told [] = [] := by
  rw [told]
  split <;> rfl

theorem told_append (c : MonitorConfig) (es fs : List Monitor.Event) :
    c.told (es ++ fs) = c.told es ++ c.told fs := by
  rw [told, told, told]
  split <;> rfl

end MonitorConfig

namespace Instrumented

open Monitor

/-- What is known of a prepared statement: its cut text and the greatest bound index. -/
structure Tracked where
  sql : String
  bound : Nat
  deriving DecidableEq, Repr

/-- The context of a run. -/
def Tracked.context (k : Tracked) : Context :=
  Context.of k.sql k.bound

/-- A monitor with state `π`: what it becomes by an event, and what it logs for it. -/
abbrev Listener (π : Type) : Type := π → Event → π × List LogEntry

variable {σ τ ω π : Type}

/-- Tell a monitor an event: the monitor afterwards, and the notes that this leaves. -/
def tell (l : Listener π) (p : π) (e : Event) : π × Trace :=
  let (p, log) := l p e
  (p, .reported e :: log.map .logged)

/-- Tell a monitor events in turn. -/
def tellAll (l : Listener π) (p : π) : List Event → π × Trace
  | [] => (p, [])
  | e :: es =>
    let (p, first) := tell l p e
    let (p, rest) := tellAll l p es
    (p, first ++ rest)

/-- What is reported after a run: that it is complete, and that it was slow. -/
def ending (config : MonitorConfig) (c : Context) (d : Duration) (r : Result) : List Event :=
  .completed c d r :: (if config.isSlow d then [.slow c d] else [])

/-- The result that is reported. -/
def reportedResult {α : Type} (summary : α → Result) : Except SqlError α → Result
  | .ok x => summary x
  | .error e => .ofError e.text

/-- A run of the wrapped connection, reported to the monitor. -/
def observe {α : Type} (l : Listener π) (config : MonitorConfig) (now : σ → Nat)
    (summary : α → Result) (run : Action ((σ × τ) × ω) α) :
    Action (((σ × π) × (τ × Tracked)) × ω) α :=
  fun (((s, p), (t, k)), w) =>
    let c := k.context
    let (p, before) := tellAll l p (config.told [.started c])
    let out := run ((s, t), w)
    let d : Duration := ⟨now out.state.1.1 - now s⟩
    let (p, after) :=
      tellAll l p (config.told (ending config c d (reportedResult summary out.result)))
    ⟨out.result, (((out.state.1.1, p), (out.state.1.2, k)), out.state.2),
      before ++ out.trace ++ after⟩

/-- Prepare a statement on the wrapped connection; a failure is reported. -/
def prepare (l : Listener π) (config : MonitorConfig) (c : Connection σ τ) (sql : String) :
    Action (σ × π) (τ × Tracked) :=
  fun (s, p) =>
    let shown := Utf8.cut sql config.maxSqlLength
    let out := c.prepare sql s
    match out.result with
    | .ok t => ⟨.ok (t, ⟨shown, 0⟩), (out.state, p), out.trace⟩
    | .error e =>
      let context := Context.of shown 0
      let d : Duration := ⟨c.now out.state - c.now s⟩
      let (p, after) :=
        tellAll l p (config.told [.started context, .completed context d (.ofError e.text)])
      ⟨.error e, (out.state, p), out.trace ++ after⟩

/-- Bind on the wrapped connection, and remember the index when that succeeds. -/
def track (index : Nat) (a : Action (σ × τ) Unit) :
    Action ((σ × π) × (τ × Tracked)) Unit :=
  fun ((s, p), (t, k)) =>
    let out := a (s, t)
    let k :=
      match out.result with
      | .ok () => { k with bound := max k.bound index }
      | .error _ => k
    ⟨out.result, ((out.state.1, p), (out.state.2, k)), out.trace⟩

/-- The visitor that also counts the rows it is handed. -/
def counting (visit : Visitor ω) : Visitor (ω × Nat) := fun r (w, n) =>
  let (result, w) := visit r w
  (result, (w, n + 1))

/-- The connection that reports to a monitor what is run on another connection. -/
def connectionTo (l : Listener π) (config : MonitorConfig) (c : Connection σ τ) :
    Connection (σ × π) (τ × Tracked) where
  now s := c.now s.1
  prepare := prepare l config c
  bind index v := track index (c.bind index v)
  bindNull index t := track index (c.bindNull index t)
  update := (observe l config c.now .affected c.update.first).within ()
  query visit := do
    let _count ← observe l config c.now .rows (c.gather (counting visit) 0)
    return ()

/-- The connection that reports to a panel what is run on another connection. -/
def connection (config : MonitorConfig) (c : Connection σ τ) :
    Connection (σ × Panel) (τ × Tracked) :=
  connectionTo Panel.receive config c

end Instrumented

end BoundSql
