import BoundSql.Connection.Scripted
import BoundSql.Proofs.Chain
import BoundSql.Proofs.Derivation
import BoundSql.Statement.Execution

/-!
# The protocol of a run

A statement is run by calls to a connection, and which calls these are can be said without the
program that makes them.  A statement is readied (`Machine.Readied`) when it can be prepared and all
its parameters are bound in turn; when one is refused, no other is tried (`Machine.Binds`).  Only
then is it run, for its effect (`Machine.Executed`) or for its rows (`Machine.Fetched`).  Rows go to
the mapper in order, up to and including the first that it refuses (`RowMap.Reads`).

`Statement.run_follows_protocol` shows that `execute` and `fetchWith` do exactly this on every
machine, whatever it answers, as long as its queries end with the first refusal; and it says where
the nulls among the parameters get their types from.

The induction is on the parameters for binding (`Statement.binds_bindFrom`) and on the cursor for
rows (`Cursor.reads_visit`).  Either way the first failure ends it, so `Machine.Binds` and
`RowMap.Reads` tell apart "all of them" and "some, and then one that fails", and one lemma each puts
one more in front (`Machine.Binds.cons`, `RowMap.Reads.accept`).
-/

namespace BoundSql

variable {σ τ ω ρ α : Type}

/-! ## Rows -/

namespace Cursor

/-- The rows of a cursor, as long as they are accepted. -/
def rows : Cursor ρ → List Row
  | .ended _ _ => []
  | .row r next => r :: (next (.ok ())).rows

/-- How a cursor ends after its last row. -/
def ending : Cursor ρ → Except SqlError Unit
  | .ended result _ => result
  | .row _ next => (next (.ok ())).ending

end Cursor

namespace RowMap

/-- Rows are mapped in turn and none is refused. -/
inductive Makes (map : RowMap ω α) : List Row → ω → List α → ω → Prop
  | nil {w : ω} : Makes map [] w [] w
  | cons {r : Row} {rs : List Row} {w w' w'' : ω} {x : α} {xs : List α}
      (made : map r w = (.ok x, w')) (rest : Makes map rs w' xs w'') :
      Makes map (r :: rs) w (x :: xs) w''

/-- A cursor is read: the rows that are handed over, the result, and what the mapper has in mind at
the end. -/
inductive Reads (map : RowMap ω α) (c : Cursor ρ) (w : ω) :
    List Row → Except SqlError (List α) → ω → Prop
  /-- Every row is accepted, and the cursor ends as it likes. -/
  | all {xs : List α} {w' : ω} (made : map.Makes c.rows w xs w') :
      Reads map c w c.rows (c.ending.map fun () => xs) w'
  /-- Some rows are accepted, the next is refused, and no other is handed over. -/
  | refused {before after : List Row} {r : Row} {xs : List α} {w' w'' : ω} {e : SqlError}
      (split : c.rows = before ++ r :: after) (made : map.Makes before w xs w')
      (refused : map r w' = (.error e, w'')) :
      Reads map c w (before ++ [r]) (.error e) w''

end RowMap

/-- One more row in front, which is accepted. -/
theorem RowMap.Reads.accept {map : RowMap ω α} {r : Row} {next : Except SqlError Unit → Cursor ρ}
    {w w' w'' : ω} {x : α} {rows : List Row} {result : Except SqlError (List α)}
    (made : map r w = (.ok x, w')) (rest : map.Reads (next (.ok ())) w' rows result w'') :
    map.Reads (.row r next) w (r :: rows) (result.map (x :: ·)) w'' := by
  cases rest with
  | @all xs _ later =>
    have whole : map.Makes (Cursor.row r next).rows w (x :: xs) w'' := .cons made later
    have result : ((next (.ok ())).ending.map fun () => xs).map (x :: ·) =
        (Cursor.row r next).ending.map fun () => x :: xs := by
      rw [Cursor.ending]
      cases (next (.ok ())).ending <;> rfl
    rw [result]
    exact .all whole
  | @refused before after r' _ _ _ _ split later refused =>
    have whole : (Cursor.row r next).rows = (r :: before) ++ r' :: after :=
      congrArg (r :: ·) split
    exact .refused whole (.cons made later) refused

/-- **What a visitor that keeps results keeps**: what is read of the cursor, after what was kept
before. -/
theorem Cursor.reads_visit (map : RowMap ω α) (c : Cursor ρ) (stops : c.Stops) (w : ω)
    (found : List α) :
    let out := c.visit map.keeping (w, found)
    out.trace.calls = [] ∧ ∃ result, map.Reads c w out.trace.rows result out.state.2.1 ∧
      out.result.map (fun () => out.state.2.2) = result.map (found ++ ·) := by
  induction c generalizing w found with
  | ended result s =>
    refine ⟨rfl, _, .all .nil, ?_⟩
    cases result with
    | ok done => exact congrArg Except.ok (List.append_nil found).symm
    | error e => rfl
  | row r next ih =>
    obtain ⟨ends, stops⟩ := stops
    rcases made : map r w with ⟨e | x, w'⟩
    · obtain ⟨s, ended⟩ := ends e
      have refused : visit map.keeping (.row r next) (w, found) =
          ⟨.error e, (s, (w', found)), [.visited r]⟩ := by
        simp [visit, RowMap.keeping, made, ended]
      rw [refused]
      exact ⟨rfl, .error e, .refused rfl .nil made, rfl⟩
    · have accepted : visit map.keeping (.row r next) (w, found) =
          let out := (next (.ok ())).visit map.keeping (w', found ++ [x])
          ⟨out.result, out.state, .visited r :: out.trace⟩ := by
        simp [visit, RowMap.keeping, made]
      obtain ⟨calls, result, reads, kept⟩ := ih (.ok ()) stops w' (found ++ [x])
      rw [accepted]
      refine ⟨calls, _, reads.accept made, kept.trans ?_⟩
      cases result <;> simp [Except.map]

/-! ## Calls -/

namespace Machine

/-- Parameters are bound in turn, from an index on, and none is refused. -/
inductive BindsAll (m : Machine σ τ) : Nat → List Param → σ × τ → σ × τ → Prop
  | nil {index : Nat} {x : σ × τ} : BindsAll m index [] x x
  | cons {index : Nat} {p : Param} {ps : List Param} {x y z : σ × τ}
      (bound : m.bind index p x = (.ok (), y)) (rest : BindsAll m (index + 1) ps y z) :
      BindsAll m index (p :: ps) x z

/-- The calls that bind parameters to the indices from a given one on. -/
def bindCalls (index : Nat) (ps : List Param) : List Call :=
  (ps.zipIdx index).map fun (p, i) => .bind i p

theorem bindCalls_cons (index : Nat) (p : Param) (ps : List Param) :
    bindCalls index (p :: ps) = .bind index p :: bindCalls (index + 1) ps := by
  rw [bindCalls, List.zipIdx_cons, List.map_cons, bindCalls]

/-- How parameters are bound from an index on: the calls that are made, and the states in which all
of them are bound or the failure that prevents it. -/
inductive Binds (m : Machine σ τ) (index : Nat) (ps : List Param) (x : σ × τ) :
    List Call → Except SqlError (σ × τ) → Prop
  /-- None is refused. -/
  | all {z : σ × τ} (bound : m.BindsAll index ps x z) :
      Binds m index ps x (bindCalls index ps) (.ok z)
  /-- Some are bound, the next is refused, and no other is tried. -/
  | refused {before after : List Param} {p : Param} {z u : σ × τ} {e : SqlError}
      (split : ps = before ++ p :: after) (bound : m.BindsAll index before x z)
      (refused : m.bind (index + before.length) p z = (.error e, u)) :
      Binds m index ps x (bindCalls index (before ++ [p])) (.error e)

/-- How a statement is readied: the calls that are made, and the states in which it is ready to run
or the failure that prevents it. -/
inductive Readied (m : Machine σ τ) (s : Statement) (x : σ) :
    List Call → Except SqlError (σ × τ) → Prop
  /-- It cannot be prepared. -/
  | unprepared {e : SqlError} {y : σ} (refused : m.prepare s.sql x = (.error e, y)) :
      Readied m s x [.prepare s.sql] (.error e)
  /-- It is prepared, and its parameters are bound from the index 1 on. -/
  | prepared {t : τ} {y : σ} {calls : List Call} {result : Except SqlError (σ × τ)}
      (prepared : m.prepare s.sql x = (.ok t, y)) (binds : m.Binds 1 s.params (y, t) calls result) :
      Readied m s x (.prepare s.sql :: calls) result

/-- How a statement is run for its effect: the calls and the result. -/
inductive Executed (m : Machine σ τ) (s : Statement) (x : σ) :
    List Call → Except SqlError Nat → Prop
  | failed {calls : List Call} {e : SqlError} (readied : m.Readied s x calls (.error e)) :
      Executed m s x calls (.error e)
  | ran {calls : List Call} {z : σ × τ} (readied : m.Readied s x calls (.ok z)) :
      Executed m s x (calls ++ [.update]) (m.update z).1

/-- How a statement is run for its rows: the calls, the rows that the mapper is given, the result,
and what the mapper has in mind at the end. -/
inductive Fetched (m : Machine σ τ) (s : Statement) (map : RowMap ω α) (x : σ) (w : ω) :
    List Call → List Row → Except SqlError (List α) → ω → Prop
  | failed {calls : List Call} {e : SqlError} (readied : m.Readied s x calls (.error e)) :
      Fetched m s map x w calls [] (.error e) w
  | ran {calls : List Call} {z : σ × τ} {rows : List Row} {result : Except SqlError (List α)}
      {w' : ω} (readied : m.Readied s x calls (.ok z))
      (read : map.Reads (m.query z) w rows result w') :
      Fetched m s map x w (calls ++ [.query]) rows result w'

end Machine

/-- One more parameter in front, which is bound. -/
theorem Machine.Binds.cons {m : Machine σ τ} {index : Nat} {p : Param} {ps : List Param}
    {x y : σ × τ} {calls : List Call} {result : Except SqlError (σ × τ)}
    (bound : m.bind index p x = (.ok (), y)) (rest : m.Binds (index + 1) ps y calls result) :
    m.Binds index (p :: ps) x (.bind index p :: calls) result := by
  cases rest with
  | all later =>
    rw [← bindCalls_cons]
    exact .all (.cons bound later)
  | @refused before _ _ _ _ _ split later refused =>
    rw [← bindCalls_cons, ← List.cons_append]
    rw [Nat.add_assoc, Nat.add_comm 1, ← List.length_cons] at refused
    exact .refused (congrArg (p :: ·) split) (.cons bound later) refused

/-- A query on a machine reads its cursor. -/
theorem Machine.collect_reads (m : Machine σ τ) (map : RowMap ω α) (z : σ × τ)
    (stops : (m.query z).Stops) (w : ω) :
    let out := m.connection.collect map (z, w)
    map.Reads (m.query z) w out.trace.rows out.result out.state.2 ∧ out.trace.calls = [.query] := by
  have run : m.connection.collect map (z, w) =
      let out := (m.query z).visit map.keeping (w, [])
      ⟨out.result.map fun () => out.state.2.2, (out.state.1, out.state.2.1),
        .called .query :: out.trace⟩ := rfl
  obtain ⟨calls, result, reads, kept⟩ := (m.query z).reads_visit map stops w []
  have all : result.map ([] ++ ·) = result := by cases result <;> rfl
  simp only [run, Trace.calls_called, Trace.rows_called, kept, all, calls]
  exact ⟨reads, trivial⟩

/-! ## Parameters -/

/-- A column that was declared with a type and then put through a chain of operations. -/
def Column.DeclaredAs (t : SqlType) (c : Column) : Prop :=
  ∃ name ops base, (ofName name t = .ok base ∨ ofFixedName name t = .ok base) ∧
    base.applyAll ops = .ok c

/-- A column keeps the type that it was declared with. -/
theorem Column.DeclaredAs.type {t : SqlType} {c : Column} (h : c.DeclaredAs t) : c.type = t := by
  obtain ⟨name, ops, base, made, applied⟩ := h
  have declared : base.type = t := by
    rcases made with made | made
    · rw [ofName] at made
      split at made <;> cases made
      rfl
    · rw [ofFixedName] at made
      split at made <;> cases made
      rfl
  exact (type_applyAll applied).trans declared

/-- Something to write: a value or a null, and a column that was declared with a type. -/
structure Written where
  type : SqlType
  column : Column
  declared : column.DeclaredAs type
  value? : Option Value

namespace Written

/-- What is handed to a statement. -/
def item (w : Written) : ColumnValue :=
  .of w.column w.value?

/-- What is to be bound: the value, or a null of the declared type. -/
def bound (w : Written) : Param :=
  match w.value? with
  | some v => .value v
  | none => .null w.type

theorem param_item (w : Written) : w.item.param = w.bound := by
  rcases w with ⟨t, c, declared, _ | v⟩
  · exact congrArg Param.null declared.type
  · rfl

theorem map_param (ws : List Written) :
    (ws.map item).map ColumnValue.param = ws.map bound := by
  rw [List.map_map]
  exact List.map_congr_left fun w _ => w.param_item

end Written

/-! ## Runs -/

namespace Statement

open Machine

/-- Binding one parameter is one call. -/
theorem bindParam_run (m : Machine σ τ) (index : Nat) (p : Param) (x : σ × τ) :
    let out := bindParam m.connection index p x
    (out.result, out.state) = m.bind index p x ∧ out.trace.calls = [.bind index p] ∧
      out.trace.rows = [] := by
  cases p <;> exact ⟨rfl, rfl, rfl⟩

/-- **How parameters are bound** is how `bindFrom` binds them. -/
theorem binds_bindFrom (m : Machine σ τ) (index : Nat) (ps : List Param) (x : σ × τ) :
    let out := bindFrom m.connection index ps x
    m.Binds index ps x out.trace.calls (out.result.map fun () => out.state) ∧
      out.trace.rows = [] := by
  induction ps generalizing index x with
  | nil => exact ⟨.all .nil, rfl⟩
  | cons p ps ih =>
    obtain ⟨answer, calls, rows⟩ := bindParam_run m index p x
    have step := Action.run_bind (bindParam m.connection index p)
      (fun _ => bindFrom m.connection (index + 1) ps) x
    rw [bindFrom]
    simp only [step]
    cases result : (bindParam m.connection index p x).result with
    | error e =>
      rw [result] at answer
      refine ⟨?_, rows⟩
      rw [calls]
      exact .refused rfl .nil answer.symm
    | ok done =>
      rw [result] at answer
      obtain ⟨binds, noRows⟩ := ih (index + 1) (bindParam m.connection index p x).state
      simp only [Trace.calls_append, Trace.rows_append, calls, rows, noRows]
      exact ⟨binds.cons answer.symm, rfl⟩

/-- A run on a prepared statement: the bindings, and when all are made the run itself. -/
theorem prepared_run (s : Statement) (c : Connection σ τ) (run : Action ((σ × τ) × ω) α) (x : σ)
    (w : ω) {t : τ} {y : σ} {opening : Trace} (answer : c.prepare s.sql x = ⟨.ok t, y, opening⟩) :
    let bound := bindFrom c 1 s.params (y, t)
    s.prepared c run (x, w) =
      match bound.result with
      | .error e => ⟨.error e, (bound.state.1, w), opening ++ bound.trace⟩
      | .ok () =>
        let out := run (bound.state, w)
        ⟨out.result, (out.state.1.1, out.state.2), opening ++ (bound.trace ++ out.trace)⟩ := by
  simp only [prepared, Action.run_bind, Action.first, answer, opened]
  cases (bindFrom c 1 s.params (y, t)).result <;> rfl

/-- A statement that cannot be prepared is not run. -/
theorem prepared_refused (s : Statement) (c : Connection σ τ) (run : Action ((σ × τ) × ω) α)
    (x : σ) (w : ω) {e : SqlError} {y : σ} {opening : Trace}
    (answer : c.prepare s.sql x = ⟨.error e, y, opening⟩) :
    s.prepared c run (x, w) = ⟨.error e, (y, w), opening⟩ := by
  simp only [prepared, Action.run_bind, Action.first, answer]

/-- **How a run goes on**: with the statement readied, or not at all. -/
theorem prepared_cases (s : Statement) (m : Machine σ τ) (run : Action ((σ × τ) × ω) α) (x : σ)
    (w : ω) :
    let out := s.prepared m.connection run (x, w)
    (∃ calls e, m.Readied s x calls (.error e) ∧ out.result = .error e ∧
      out.trace.calls = calls ∧ out.trace.rows = [] ∧ out.state.2 = w) ∨
    ∃ calls z, m.Readied s x calls (.ok z) ∧ out.result = (run (z, w)).result ∧
      out.trace.calls = calls ++ (run (z, w)).trace.calls ∧
      out.trace.rows = (run (z, w)).trace.rows ∧ out.state.2 = (run (z, w)).state.2 := by
  rcases answer : m.prepare s.sql x with ⟨e | t, y⟩
  · rw [prepared_refused s m.connection run x w (connection_prepare answer)]
    exact .inl ⟨_, e, .unprepared answer, rfl, rfl, rfl, rfl⟩
  · obtain ⟨binds, noRows⟩ := binds_bindFrom m 1 s.params (y, t)
    rw [prepared_run s m.connection run x w (connection_prepare answer)]
    cases result : (bindFrom m.connection 1 s.params (y, t)).result with
    | ok done =>
      rw [result] at binds
      refine .inr ⟨_, _, .prepared answer binds, rfl, ?_, ?_, rfl⟩
      · simp only [Trace.calls_append]
        rfl
      · simp only [Trace.rows_append, noRows]
        rfl
    | error e =>
      rw [result] at binds
      exact .inl ⟨_, e, .prepared answer binds, rfl, rfl, noRows, rfl⟩

/-- The entry at the end of a run. -/
def closing (s : Statement) (mode : RunMode) : Except SqlError Nat → LogEntry
  | .ok count => .finished mode count
  | .error e => .failed mode e s.sql

/-- The log entries around a run change nothing about it but its trace. -/
theorem logged_eq {ρ : Type} (s : Statement) (mode : RunMode) (count : α → Nat)
    (run : Action ρ α) (x : ρ) :
    s.logged mode count run x =
      ⟨(run x).result, (run x).state,
        .logged (.executing mode s.kind s.params.length s.sql) ::
          ((run x).trace ++ [.logged (s.closing mode ((run x).result.map count))])⟩ := by
  simp only [logged, Action.run_bind, log, Action.note, Action.attempt]
  cases (run x).result <;> rfl

/-- Log entries are neither calls nor rows. -/
theorem logged_run {ρ : Type} (s : Statement) (mode : RunMode) (count : α → Nat)
    (run : Action ρ α) (x : ρ) :
    let out := s.logged mode count run x
    out.result = (run x).result ∧ out.state = (run x).state ∧
      out.trace.calls = (run x).trace.calls ∧ out.trace.rows = (run x).trace.rows := by
  rw [logged_eq]
  refine ⟨rfl, rfl, ?_, ?_⟩
  · exact (Trace.calls_append _ _).trans (List.append_nil _)
  · exact (Trace.rows_append _ _).trans (List.append_nil _)

/-- A run for the effect makes the calls of the protocol and gives its result. -/
theorem executed_execute (m : Machine σ τ) (s : Statement) (x : σ) :
    let out := s.execute m.connection x
    m.Executed s x out.trace.calls out.result := by
  obtain ⟨result, -, calls, -⟩ :=
    logged_run s .statement id (s.prepared m.connection m.connection.update.first) (x, ())
  simp only [execute, Action.within, result, calls]
  rcases prepared_cases s m m.connection.update.first x () with
    ⟨calls, e, readied, result, made, -, -⟩ | ⟨calls, z, readied, result, made, -, -⟩
  · rw [result, made]
    exact .failed readied
  · rw [result, made]
    exact .ran readied

/-- A run for the rows makes the calls of the protocol, hands over its rows and gives its result. -/
theorem fetched_fetchWith (m : Machine σ τ) (stops : ∀ z, (m.query z).Stops) (s : Statement)
    (map : RowMap ω α) (x : σ) (w : ω) :
    let out := s.fetchWith m.connection map (x, w)
    m.Fetched s map x w out.trace.calls out.trace.rows out.result out.state.2 := by
  obtain ⟨result, state, calls, rows⟩ :=
    logged_run s .query List.length (s.prepared m.connection (m.connection.collect map)) (x, w)
  simp only [fetchWith, result, state, calls, rows]
  rcases prepared_cases s m (m.connection.collect map) x w with
    ⟨calls, e, readied, result, made, handed, kept⟩ |
    ⟨calls, z, readied, result, made, handed, kept⟩
  · rw [result, made, handed, kept]
    exact .failed readied
  · obtain ⟨read, queried⟩ := m.collect_reads map z (stops z) w
    rw [result, made, handed, kept, queried]
    exact .ran readied read

/-- **The protocol of a run.**  On every machine a run for the effect makes the calls of the
protocol and has its result, and so does a run for the rows when queries end with the first refusal.
The parameters of a statement are those of its clauses in turn: a value, or a null of the declared
type, for everything that is written, and no null from a filter. -/
theorem run_follows_protocol (m : Machine σ τ) (s : Statement) (x : σ) :
    (let out := s.execute m.connection x
     m.Executed s x out.trace.calls out.result) ∧
    ((∀ z, (m.query z).Stops) → ∀ {ω α : Type} (map : RowMap ω α) (w : ω),
      let out := s.fetchWith m.connection map (x, w)
      m.Fetched s map x w out.trace.calls out.trace.rows out.result out.state.2) ∧
    (∀ cs, build cs = .ok (some s) → s.params = cs.flatMap Clause.params) ∧
    (∀ ws : List Written, (Clause.values (ws.map Written.item)).params = ws.map Written.bound ∧
      (Clause.assign (ws.map Written.item)).params = ws.map Written.bound) ∧
    ∀ (f : Filter), ∀ p ∈ (Clause.filtered f).params, p.isNull = false := by
  refine ⟨executed_execute m s x, fun stops _ _ map w => fetched_fetchWith m stops s map x w,
    fun cs built => (build_eq_ok built).2,
    fun ws => ⟨Written.map_param ws, Written.map_param ws⟩, fun f p hp => ?_⟩
  obtain ⟨v, -, rfl⟩ := List.mem_map.mp hp
  rfl

/-- An INSERT whose second parameter is a null that the connection refuses, and a SELECT whose
second row of three is refused by a mapper that counts. -/
theorem run_follows_protocol_insert_select :
    (∃ (ws : List Written) (s : Statement),
      build [.insert, .into { name := "T" }, .values (ws.map Written.item)] = .ok (some s) ∧
      ws.map Written.column =
        [{ name := "A", type := .bigInt }, { name := "MAX(B)", type := .date }] ∧
      s.params = [.value (.int 1), .null .date] ∧
      (Script.machine { bindError? := some (2, "refused") }).Executed s 0
        [.prepare s.sql, .bind 1 (.value (.int 1)), .bind 2 (.null .date)]
        (.error (.connection "refused"))) ∧
    ∃ s : Statement, build [.select [.all], .fromTables [{ name := "T" }]] = .ok (some s) ∧
      let cells (i : Int64) : List (String × Option Value) := [("A", some (.int i))]
      let map : RowMap Nat Nat := fun _ n =>
        (if n = 1 then .error (.other "refused") else .ok n, n + 1)
      (Script.machine { rows := [cells 1, cells 2, cells 3] }).Fetched s map 0 0
        [.prepare s.sql, .query] [Script.row (cells 1), Script.row (cells 2)]
        (.error (.other "refused")) 2 := by
  constructor
  · have declaredA : Column.DeclaredAs .bigInt { name := "A", type := .bigInt } :=
      ⟨"A", [], _, .inr rfl, rfl⟩
    have declaredB : Column.DeclaredAs .date { name := "MAX(B)", type := .date } :=
      ⟨"B", [.wrap .max], _, .inr rfl, rfl⟩
    let ws : List Written := [⟨_, _, declaredA, some (.int 1)⟩, ⟨_, _, declaredB, none⟩]
    have built : build [.insert, .into { name := "T" }, .values (ws.map Written.item)] =
        .ok (some ⟨.insertValues, _, _⟩) := rfl
    obtain ⟨executed, -, params, -⟩ := run_follows_protocol
      (Script.machine { bindError? := some (2, "refused") }) ⟨.insertValues, _, _⟩ 0
    exact ⟨ws, _, built, rfl, params _ built, executed⟩
  · have built : build [.select [.all], .fromTables [{ name := "T" }]] =
        .ok (some ⟨.selectFrom, _, _⟩) := rfl
    refine ⟨_, built, ?_⟩
    intro cells map
    obtain ⟨-, fetched, -⟩ := run_follows_protocol
      (Script.machine { rows := [cells 1, cells 2, cells 3] }) ⟨.selectFrom, _, _⟩ 0
    exact fetched (fun z => Cursor.stops_ofRows _ _ _) map 0

end Statement

end BoundSql
