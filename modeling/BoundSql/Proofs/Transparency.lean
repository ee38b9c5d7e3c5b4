import BoundSql.Connection.Instrumented
import BoundSql.Session
import BoundSql.Statement.Execution
import Mathlib.Data.List.Forall2

/-!
# Instrumentation is transparent

Whoever talks to an instrumented connection cannot tell it from the connection that it wraps, and
the wrapped connection cannot tell whether it is wrapped.

One action mirrors another (`Action.Mirrors`) when it gives the same result, leaves the same state
once its own part of it is forgotten, and makes the same calls and hands over the same rows, all in
one order.  Everything that programs are put together from keeps this, so it is enough to compare
two connections call by call (`Connection.Mirrors`), and then

* every session, with any commands on any number of statements (`Session.performAll_mirrors`), and
* every run of a statement (`Statement.execute_mirrors`, `Statement.fetchWith_mirrors`)

is the same on both.  `Instrumented.connectionTo_mirrors` is the comparison for the instrumented
connection, whatever the monitor and the settings; the count of rows goes through a second visitor,
which `Cursor.visit_counting` separates from the first by induction on the cursor.
-/

namespace BoundSql

variable {σ σ' τ τ' ω π α α' β β' : Type}

/-! ## Mirrored actions -/

namespace Trace

/-- The calls and the rows of a trace, in order: what a connection and its visitors see. -/
def passing (t : Trace) : Trace :=
  t.filter fun
    | .called _ | .visited _ => true
    | .reported _ | .logged _ => false

theorem passing_append (t u : Trace) : passing (t ++ u) = passing t ++ passing u :=
  List.filter_append t u

theorem rows_passing (t : Trace) : rows (passing t) = rows t := by
  rw [rows, rows, passing, List.filterMap_filter]
  refine List.filterMap_congr fun n _ => ?_
  cases n <;> rfl

end Trace

/-- One outcome is another, once part of the state and of the result is forgotten. -/
structure Outcome.Mirrors (f : σ' → σ) (g : α' → α) (out' : Outcome σ' α') (out : Outcome σ α) :
    Prop where
  result : out'.result.map g = out.result
  state : f out'.state = out.state
  passing : out'.trace.passing = out.trace.passing

theorem Outcome.Mirrors.result_eq {f : σ' → σ} {out' : Outcome σ' α} {out : Outcome σ α}
    (same : out'.Mirrors f id out) : out'.result = out.result := by
  have := same.result
  rwa [Except.map_id] at this

theorem Outcome.Mirrors.rows {f : σ' → σ} {g : α' → α} {out' : Outcome σ' α'} {out : Outcome σ α}
    (same : out'.Mirrors f g out) : out'.trace.rows = out.trace.rows := by
  rw [← Trace.rows_passing, same.passing, Trace.rows_passing]

/-- One action has the outcomes of another, once part of the state and of the result is
forgotten. -/
def Action.Mirrors (f : σ' → σ) (g : α' → α) (a' : Action σ' α') (a : Action σ α) : Prop :=
  ∀ s, (a' s).Mirrors f g (a (f s))

namespace Action.Mirrors

variable {f : σ' → σ} {g : α' → α} {h : β' → β} {a' : Action σ' α'} {a : Action σ α}

theorem pure (x : α') : Mirrors f g (Action.pure x) (Action.pure (g x)) :=
  fun _ => ⟨rfl, rfl, rfl⟩

theorem fail (e : SqlError) : Mirrors f g (Action.fail e) (Action.fail e) :=
  fun _ => ⟨rfl, rfl, rfl⟩

theorem note (t : Trace) : Mirrors f id (Action.note t) (Action.note t) :=
  fun _ => ⟨rfl, rfl, rfl⟩

/-- Actions that mirror each other go on alike with actions that do. -/
theorem bind {k' : α' → Action σ' β'} {k : α → Action σ β} (first : Mirrors f g a' a)
    (rest : ∀ x, Mirrors f h (k' x) (k (g x))) : Mirrors f h (a' >>= k') (a >>= k) := by
  intro s
  obtain ⟨result, state, passing⟩ := first s
  rw [run_bind, run_bind, ← result, ← state]
  cases (a' s).result with
  | error e => exact ⟨rfl, rfl, passing⟩
  | ok x =>
    obtain ⟨result', state', passing'⟩ := rest x (a' s).state
    refine ⟨result', state', ?_⟩
    simp only [Except.map, Trace.passing_append]
    rw [passing, passing']

theorem attempt (same : Mirrors f g a' a) : Mirrors f (Except.map g) a'.attempt a.attempt :=
  fun s => ⟨congrArg Except.ok (same s).result, (same s).state, (same s).passing⟩

theorem first (same : Mirrors f g a' a) :
    Mirrors (Prod.map f (id : ω → ω)) g a'.first a.first :=
  fun (s, part) =>
    ⟨(same s).result, congrArg (·, part) (same s).state, (same s).passing⟩

theorem within (part : ω) {b' : Action (σ' × ω) α'} {b : Action (σ × ω) α}
    (same : Mirrors (Prod.map f id) g b' b) : Mirrors f g (b'.within part) (b.within part) :=
  fun s =>
    ⟨(same (s, part)).result, congrArg Prod.fst (same (s, part)).state, (same (s, part)).passing⟩

end Action.Mirrors

/-! ## Mirrored connections -/

/-- One connection mirrors another call by call. -/
structure Connection.Mirrors (f : σ' → σ) (g : τ' → τ) (c' : Connection σ' τ')
    (c : Connection σ τ) : Prop where
  prepare (sql : String) : (c'.prepare sql).Mirrors f g (c.prepare sql)
  bind (index : Nat) (v : Value) :
    (c'.bind index v).Mirrors (Prod.map f g) id (c.bind index v)
  bindNull (index : Nat) (t : SqlType) :
    (c'.bindNull index t).Mirrors (Prod.map f g) id (c.bindNull index t)
  update : c'.update.Mirrors (Prod.map f g) id c.update
  query {ω : Type} (visit : Visitor ω) :
    (c'.query visit).Mirrors (Prod.map (Prod.map f g) id) id (c.query visit)

variable {f : σ' → σ} {g : τ' → τ} {c' : Connection σ' τ'} {c : Connection σ τ}

/-- What is gathered from the rows of a mirrored connection is the same. -/
theorem Connection.Mirrors.gather (same : c'.Mirrors f g c) (visit : Visitor (ω × β)) (start : β) :
    (c'.gather visit start).Mirrors (Prod.map (Prod.map f g) id) id (c.gather visit start) := by
  rintro ⟨s, w⟩
  have query := same.query visit (s, (w, start))
  have kept : (c'.query visit (s, (w, start))).state.2 =
      (c.query visit (Prod.map f g s, (w, start))).state.2 := congrArg Prod.snd query.state
  have left : Prod.map f g (c'.query visit (s, (w, start))).state.1 =
      (c.query visit (Prod.map f g s, (w, start))).state.1 := congrArg Prod.fst query.state
  have result : (c'.query visit (s, (w, start))).result =
      (c.query visit (Prod.map f g s, (w, start))).result := query.result_eq
  refine ⟨?_, ?_, query.passing⟩
  · simp only [Connection.gather, Prod.map, id, result, kept, Except.map_id]
  · exact Prod.ext left (congrArg Prod.fst kept)

namespace Statement

theorem bindParam_mirrors (same : c'.Mirrors f g c) (index : Nat) (p : Param) :
    (bindParam c' index p).Mirrors (Prod.map f g) id (bindParam c index p) := by
  cases p with
  | value v => exact same.bind index v
  | null t => exact (Action.Mirrors.note _).bind fun () => same.bindNull index t

theorem bindFrom_mirrors (same : c'.Mirrors f g c) (index : Nat) (ps : List Param) :
    (bindFrom c' index ps).Mirrors (Prod.map f g) id (bindFrom c index ps) := by
  induction ps generalizing index with
  | nil => exact Action.Mirrors.pure ()
  | cons p ps ih => exact (bindParam_mirrors same index p).bind fun () => ih (index + 1)

theorem prepared_mirrors (same : c'.Mirrors f g c) (s : Statement)
    {run' : Action ((σ' × τ') × ω) α} {run : Action ((σ × τ) × ω) α}
    (alike : run'.Mirrors (Prod.map (Prod.map f g) id) id run) :
    (s.prepared c' run').Mirrors (Prod.map f id) id (s.prepared c run) := by
  have rest : Action.Mirrors (Prod.map (Prod.map f g) id) id
      (do (bindFrom c' 1 s.params).first; run') (do (bindFrom c 1 s.params).first; run) :=
    (bindFrom_mirrors same 1 s.params).first.bind fun () => alike
  refine (same.prepare s.sql).first.bind fun t => ?_
  rintro ⟨x, w⟩
  have out := rest ((x, t), w)
  refine ⟨out.result, ?_, out.passing⟩
  exact Prod.ext (congrArg (·.1.1) out.state) (congrArg (·.2) out.state)

theorem logged_mirrors (s : Statement) (mode : RunMode) (count : α → Nat) {f : σ' → σ}
    {run' : Action σ' α} {run : Action σ α} (alike : run'.Mirrors f id run) :
    (s.logged mode count run').Mirrors f id (s.logged mode count run) := by
  refine (Action.Mirrors.note _).bind fun () => alike.attempt.bind fun result => ?_
  rw [Except.map_id]
  cases result with
  | ok x => exact (Action.Mirrors.note _).bind fun () => Action.Mirrors.pure x
  | error e => exact (Action.Mirrors.note _).bind fun () => Action.Mirrors.fail e

/-- A run for the effect is the same on a mirrored connection. -/
theorem execute_mirrors (same : c'.Mirrors f g c) (s : Statement) :
    (s.execute c').Mirrors f id (s.execute c) :=
  (logged_mirrors s .statement id (prepared_mirrors same s same.update.first)).within ()

/-- A run for the rows is the same on a mirrored connection. -/
theorem fetchWith_mirrors (same : c'.Mirrors f g c) (s : Statement) (map : RowMap ω α) :
    (s.fetchWith c' map).Mirrors (Prod.map f id) id (s.fetchWith c map) :=
  logged_mirrors s .query List.length (prepared_mirrors same s (same.gather map.keeping []))

end Statement

namespace Session

/-- A session with other states of the connection and of the statements. -/
def map (f : σ' → σ) (g : τ' → τ) (s : Session σ' τ') : Session σ τ :=
  ⟨f s.state, s.statements.map g⟩

theorem withStatement_mirrors (n : Nat) (answer : β → Answer α)
    {a' : Action ((σ' × τ') × ω) β} {a : Action ((σ × τ) × ω) β}
    (alike : a'.Mirrors (Prod.map (Prod.map f g) id) id a) :
    (withStatement n answer a').Mirrors (Prod.map (map f g) id) id (withStatement n answer a) := by
  rintro ⟨s, w⟩
  have found : (s.map f g).statements[n]? = s.statements[n]?.map g := List.getElem?_map
  cases known : s.statements[n]? with
  | none =>
    rw [known] at found
    rw [withStatement_none known, Prod.map_apply, withStatement_none found]
    exact ⟨rfl, rfl, rfl⟩
  | some t =>
    rw [known] at found
    rw [withStatement_some known, Prod.map_apply, withStatement_some found]
    have out := alike ((s.state, t), w)
    have state := congrArg (·.1.1) out.state
    have statement := congrArg (·.1.2) out.state
    refine ⟨?_, Prod.ext ?_ (congrArg (·.2) out.state), out.passing⟩
    · rw [Except.map_id]
      exact congrArg (Except.map answer) out.result_eq
    · refine congrArg₂ Session.mk state ?_
      rw [List.map_set]
      exact congrArg _ statement

theorem prepare_mirrors (same : c'.Mirrors f g c) (sql : String) :
    (prepare (α := α) c' sql).Mirrors (map f g) id (prepare c sql) := by
  intro s
  obtain ⟨result, state, passing⟩ := same.prepare sql s.state
  simp only [prepare, map, ← result]
  cases (c'.prepare sql s.state).result with
  | ok t => exact ⟨rfl, congrArg₂ Session.mk state List.map_append, passing⟩
  | error e => exact ⟨rfl, congrArg₂ Session.mk state rfl, passing⟩

/-- A command is the same on a mirrored connection. -/
theorem performWith_mirrors (same : c'.Mirrors f g c) (map : RowMap ω α) (command : Command) :
    (performWith c' map command).Mirrors (Prod.map (Session.map f g) id) id
      (performWith c map command) := by
  cases command with
  | prepare sql => exact (prepare_mirrors same sql).first
  | bind n index v => exact withStatement_mirrors n _ (same.bind index v).first
  | bindNull n index t => exact withStatement_mirrors n _ (same.bindNull index t).first
  | update n => exact withStatement_mirrors n _ same.update.first
  | query n => exact withStatement_mirrors n _ (same.gather map.keeping [])

/-- One step of a session is another, once part of the states is forgotten. -/
structure Step.Mirrors (f : σ' → σ) (g : τ' → τ) (step' : Step σ' τ' ω α) (step : Step σ τ ω α) :
    Prop where
  command : step'.command = step.command
  before : Prod.map (Session.map f g) id step'.before = step.before
  outcome : step'.outcome.Mirrors (Prod.map (Session.map f g) id) id step.outcome

/-- Any commands are the same on a mirrored connection, one by one. -/
theorem performAll_mirrors (same : c'.Mirrors f g c) (commands : List (Command × RowMap ω α))
    (s : Session σ' τ' × ω) :
    List.Forall₂ (Step.Mirrors f g) (performAll c' commands s)
      (performAll c commands (Prod.map (Session.map f g) id s)) := by
  induction commands generalizing s with
  | nil => exact .nil
  | cons first rest ih =>
    have outcome := performWith_mirrors same first.2 first.1 s
    refine .cons ⟨rfl, rfl, outcome⟩ ?_
    rw [← outcome.state]
    exact ih _

end Session

/-! ## The instrumented connection -/

namespace Cursor

/-- Counting rows leaves a visit as it is, and counts every row that is handed over. -/
theorem visit_counting {ρ : Type} (visitor : Visitor ω) (c : Cursor ρ) (w : ω) (n : Nat) :
    c.visit (Instrumented.counting visitor) (w, n) =
      let out := c.visit visitor w
      ⟨out.result, (out.state.1, (out.state.2, n + out.trace.rows.length)), out.trace⟩ := by
  induction c generalizing w n with
  | ended result s => rfl
  | row r next ih =>
    rcases answer : visitor r w with ⟨accepted, w'⟩
    simp only [visit, Instrumented.counting, answer, ih, Trace.rows_visited, List.length_cons]
    rw [Nat.add_assoc, Nat.add_comm 1]

end Cursor

namespace Instrumented

open Monitor

theorem passing_tell (l : Listener π) (p : π) (e : Event) : (tell l p e).2.passing = [] := by
  simp [tell, Trace.passing, List.filter_map]

theorem passing_tellAll (l : Listener π) (p : π) (es : List Event) :
    (tellAll l p es).2.passing = [] := by
  induction es generalizing p with
  | nil => rfl
  | cons e es ih => rw [tellAll, Trace.passing_append, passing_tell, ih, List.append_nil]

/-- Reporting a run leaves it as it is. -/
theorem observe_mirrors (l : Listener π) (config : MonitorConfig) (now : σ → Nat)
    (summary : α → Result) (run : Action ((σ × τ) × ω) α) :
    (observe l config now summary run).Mirrors (Prod.map (Prod.map Prod.fst Prod.fst) id) id
      run := by
  rintro ⟨⟨⟨s, p⟩, ⟨t, k⟩⟩, w⟩
  refine ⟨?_, rfl, ?_⟩
  · rw [Except.map_id]
    rfl
  · simp only [observe, Trace.passing_append, passing_tellAll, List.nil_append, List.append_nil]
    rfl

theorem track_mirrors (index : Nat) (a : Action (σ × τ) Unit) :
    (track (π := π) index a).Mirrors (Prod.map Prod.fst Prod.fst) id a := by
  rintro ⟨⟨s, p⟩, ⟨t, k⟩⟩
  exact ⟨by rw [Except.map_id]; rfl, rfl, rfl⟩

theorem prepare_mirrors (l : Listener π) (config : MonitorConfig) (c : Connection σ τ)
    (sql : String) : (prepare l config c sql).Mirrors Prod.fst Prod.fst (c.prepare sql) := by
  rintro ⟨s, p⟩
  rw [prepare]
  cases answer : (c.prepare sql s).result with
  | ok t => exact ⟨answer.symm, rfl, rfl⟩
  | error e =>
    refine ⟨answer.symm, rfl, ?_⟩
    simp only [Trace.passing_append, passing_tellAll, List.append_nil]

/-- A query with its rows counted gives the number of rows that it hands over. -/
theorem gather_counting (m : Machine σ τ) (visit : Visitor ω) (x : (σ × τ) × ω) :
    m.connection.gather (counting visit) 0 x =
      let out := m.connection.query visit x
      ⟨out.result.map fun () => out.trace.rows.length, out.state, out.trace⟩ := by
  obtain ⟨s, w⟩ := x
  simp only [Connection.gather, Machine.connection, Machine.runQuery, Cursor.visit_counting,
    Nat.zero_add, Trace.rows_called]

/-- A query whose rows are counted is the query, once the count is forgotten. -/
theorem gather_counting_bind (m : Machine σ τ) (visit : Visitor ω) :
    (m.connection.gather (counting visit) 0 >>= fun _ => Action.pure ()) =
      m.connection.query visit := by
  funext x
  rw [Action.run_bind_pure, gather_counting]
  rcases m.connection.query visit x with ⟨e | done, state, trace⟩ <;> rfl

/-- **Call by call**, the instrumented connection is the one that it wraps. -/
theorem connectionTo_mirrors (l : Listener π) (config : MonitorConfig) (m : Machine σ τ) :
    (connectionTo l config m.connection).Mirrors Prod.fst Prod.fst m.connection where
  prepare sql := prepare_mirrors l config m.connection sql
  bind index v := track_mirrors index _
  bindNull index t := track_mirrors index _
  update := (observe_mirrors l config m.now .affected m.connection.update.first).within ()
  query visit := by
    -- What is observed is a query with a second visitor inside, so the direct one is written so too.
    rw [← gather_counting_bind]
    exact (observe_mirrors l config m.now .rows _).bind fun _ => Action.Mirrors.pure ()

/-- **Instrumentation is transparent.**  Whatever the wrapped machine answers, whatever the monitor
and the settings, every session and every run of a statement goes on as on the machine itself: each
command has the same result, the machine gets the same calls and comes to the same state, and the
same rows are handed over, with the same in mind afterwards. -/
theorem mirrors_machine (l : Listener π) (config : MonitorConfig) (m : Machine σ τ) :
    (∀ {ω α : Type} (commands : List (Command × RowMap ω α))
      (s : Session (σ × π) (τ × Tracked)) (w : ω),
      List.Forall₂ (Session.Step.Mirrors Prod.fst Prod.fst)
        (Session.performAll (connectionTo l config m.connection) commands (s, w))
        (Session.performAll m.connection commands (s.map Prod.fst Prod.fst, w))) ∧
    ∀ (s : Statement) (x : σ) (p : π),
      (s.execute (connectionTo l config m.connection) (x, p)).Mirrors Prod.fst id
        (s.execute m.connection x) ∧
      ∀ {ω α : Type} (map : RowMap ω α) (w : ω),
        (s.fetchWith (connectionTo l config m.connection) map ((x, p), w)).Mirrors
          (Prod.map Prod.fst id) id (s.fetchWith m.connection map (x, w)) := by
  have same := connectionTo_mirrors l config m
  refine ⟨fun commands s w => Session.performAll_mirrors same commands (s, w), fun s x p => ?_⟩
  exact ⟨s.execute_mirrors same (x, p), fun map w => s.fetchWith_mirrors same map ((x, p), w)⟩

end Instrumented

end BoundSql
