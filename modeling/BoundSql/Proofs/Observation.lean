import BoundSql.Proofs.Transparency
import BoundSql.Proofs.Truncation

/-!
# A step on an instrumented connection

Between two steps of a session an instrumented connection remembers of each open statement a cut
text and a number (`Instrumented.Tracked`).  `Turn` lists what a step does to this memory and what
it reports: to prepare a statement adds to it, to bind something raises a number, and a run leaves
it as it is and is reported.  `takesTurn_performWith` shows that every command does one of these, on
any machine and with any monitor, and that the monitor hears what is told of the report, which is
all of it or nothing.

The cases are those of the command.  Both ways to bind are one lemma (`takesTurn_track`), and so are
both ways to run a statement (`takesTurn_observed`), which differ in what a result is worth.
-/

namespace BoundSql

open Monitor

variable {σ τ ω π α β : Type}

/-! ## What can be read off a step -/

namespace Session

namespace Step

/-- The text of the statement that was prepared, if one was. -/
def prepared? (step : Step σ τ ω α) : Option String :=
  match step.command, step.outcome.result with
  | .prepare sql, .ok _ => some sql
  | _, _ => none

/-- The step is to bind something to a statement at an index. -/
def AsksToBind (step : Step σ τ ω α) (n index : Nat) : Prop :=
  (∃ v, step.command = .bind n index v) ∨ ∃ t, step.command = .bindNull n index t

/-- The step has bound something to a statement at an index. -/
structure Binds (step : Step σ τ ω α) (n index : Nat) : Prop where
  asked : step.AsksToBind n index
  done : step.outcome.result = .ok .bound

/-- The step is to run a statement, for its effect or for its rows. -/
def AsksToRun (step : Step σ τ ω α) (n : Nat) : Prop :=
  step.command = .update n ∨ step.command = .query n

/-- How a run ended: a query is worth the number of rows that it handed over, and of the text of an
error that takes more than 512 bytes the beginning is told, with dots. -/
inductive Ends (step : Step σ τ ω α) : Result → Prop
  | affected {count : Nat} (done : step.outcome.result = .ok (.affected count)) :
      Ends step (.affected count)
  | rows {found : List α} (done : step.outcome.result = .ok (.rows found)) :
      Ends step (.rows step.outcome.trace.rows.length)
  | failed {e : SqlError} {message : String} (failed : step.outcome.result = .error e)
      (told : Utf8.IsDotted 512 e.text message) : Ends step (.error message)

/-- How long the step took by a clock. -/
def span (now : σ → Nat) (step : Step σ τ ω α) : Duration :=
  ⟨now step.outcome.state.1.state - now step.before.1.state⟩

end Step

end Session

open Session

/-- A span is longer than the threshold, if there is one. -/
def MonitorConfig.Exceeded (config : MonitorConfig) (d : Duration) : Prop :=
  ∃ threshold, config.slowThreshold? = some threshold ∧ threshold.nanos < d.nanos

theorem MonitorConfig.isSlow_iff (config : MonitorConfig) (d : Duration) :
    config.isSlow d = true ↔ config.Exceeded d := by
  rw [isSlow, Exceeded]
  cases config.slowThreshold? with
  | none => simp
  | some threshold => simp

namespace Instrumented

/-! ## What a run reports -/

/-- After a run it is reported that it is complete, and then that it was slow if it exceeded the
threshold. -/
theorem exists_ending_eq (config : MonitorConfig) (c : Context) (d : Duration) (r : Result) :
    ∃ slow, ending config c d r = .completed c d r :: slow ∧
      (config.Exceeded d ∧ slow = [.slow c d] ∨ ¬ config.Exceeded d ∧ slow = []) := by
  refine ⟨_, rfl, ?_⟩
  rw [← MonitorConfig.isSlow_iff]
  split
  · next slow => exact .inl ⟨slow, rfl⟩
  · next quick => exact .inr ⟨quick, rfl⟩

/-- A monitor after it has heard events. -/
def hear (l : Listener π) (p : π) (es : List Event) : π :=
  es.foldl (fun p e => (l p e).1) p

theorem tellAll_fst (l : Listener π) (p : π) (es : List Event) :
    (tellAll l p es).1 = hear l p es := by
  induction es generalizing p with
  | nil => rfl
  | cons e es ih => exact ih _

theorem events_tellAll (l : Listener π) (p : π) (es : List Event) :
    (tellAll l p es).2.events = es := by
  induction es generalizing p with
  | nil => rfl
  | cons e es ih =>
    have first : (tell l p e).2.events = [e] := by
      simp [tell, Trace.events, List.filterMap_map]
    rw [tellAll, Trace.events_append, first, ih, List.singleton_append]

/-- A run was reported: what is known of the statement is as before, and the monitor has heard the
events. -/
structure Observed (l : Listener π) (config : MonitorConfig) (now : σ → Nat) (s : σ) (p : π)
    (k : Tracked) (out : Outcome (((σ × π) × (τ × Tracked)) × ω) α) (result : Result) : Prop where
  kept : out.state.1.2.2 = k
  events : out.trace.events = config.told
    (.started k.context :: ending config k.context ⟨now out.state.1.1.1 - now s⟩ result)
  monitor : out.state.1.1.2 = hear l p out.trace.events

/-- An action leaves no events by itself. -/
def Silent (a : Action ω α) : Prop :=
  ∀ s, (a s).trace.events = []

/-- A run that leaves no events by itself leaves those that are told of it. -/
theorem observed_observe {l : Listener π} {config : MonitorConfig} {now : σ → Nat}
    {summary : α → Result} {run : Action ((σ × τ) × ω) α} (silent : Silent run) (s : σ) (p : π)
    (t : τ) (k : Tracked) (w : ω) :
    Observed l config now s p k (observe l config now summary run (((s, p), (t, k)), w))
      (reportedResult summary (run ((s, t), w)).result) := by
  have events : (observe l config now summary run (((s, p), (t, k)), w)).trace.events =
      config.told (.started k.context ::
        ending config k.context ⟨now (run ((s, t), w)).state.1.1 - now s⟩
          (reportedResult summary (run ((s, t), w)).result)) := by
    simp only [observe, Trace.events_append, events_tellAll, silent ((s, t), w), List.append_nil]
    exact (config.told_append [_] _).symm
  refine ⟨rfl, events, ?_⟩
  rw [events]
  simp only [observe, tellAll_fst]
  rw [hear, hear, ← List.foldl_append, ← MonitorConfig.told_append]
  rfl

/-- Of a statement that is prepared, the cut text is kept, and that nothing is bound yet. -/
theorem prepare_connectionTo_ok (l : Listener π) (config : MonitorConfig) {m : Machine σ τ}
    {sql : String} {x y : σ} {t : τ} (answer : m.prepare sql x = (.ok t, y)) (p : π) :
    (connectionTo l config m.connection).prepare sql (x, p) =
      ⟨.ok (t, ⟨Utf8.cut sql config.maxSqlLength, 0⟩), (y, p), [.called (.prepare sql)]⟩ := by
  simp only [connectionTo, prepare, Machine.connection_prepare answer]

/-- A statement that cannot be prepared is reported. -/
theorem prepare_connectionTo_error (l : Listener π) (config : MonitorConfig) {m : Machine σ τ}
    {sql : String} {x y : σ} {e : SqlError} (answer : m.prepare sql x = (.error e, y)) (p : π) :
    (connectionTo l config m.connection).prepare sql (x, p) =
      let c := Context.of (Utf8.cut sql config.maxSqlLength) 0
      let d : Duration := ⟨m.now y - m.now x⟩
      let told := tellAll l p (config.told [.started c, .completed c d (.ofError e.text)])
      ⟨.error e, (y, told.1), .called (.prepare sql) :: told.2⟩ := by
  simp only [connectionTo, prepare, Machine.connection_prepare answer]
  rfl

/-- Rows leave no events. -/
theorem events_visit {ρ : Type} (visitor : Visitor ω) (c : Cursor ρ) (w : ω) :
    (c.visit visitor w).trace.events = [] := by
  induction c generalizing w with
  | ended result s => rfl
  | row r next ih => exact ih (visitor r w).1 (visitor r w).2

theorem silent_gather (m : Machine σ τ) (visit : Visitor (ω × β)) (start : β) :
    Silent (m.connection.gather visit start) :=
  fun (s, w) => events_visit visit (m.query s) (w, start)

/-- A run for the effect is reported with its result. -/
theorem observed_update (l : Listener π) (config : MonitorConfig) (m : Machine σ τ) (s : σ) (p : π)
    (t : τ) (k : Tracked) (w : ω) :
    let out := (connectionTo l config m.connection).update.first (((s, p), (t, k)), w)
    Observed l config m.now s p k out (reportedResult .affected out.result) := by
  have silent : Silent (m.connection.update.first (ρ := Unit)) := fun _ => rfl
  obtain ⟨kept, events, monitor⟩ := observed_observe silent s p t k ()
  exact ⟨kept, events, monitor⟩

/-- A run for the rows is reported with the number of rows that it handed over. -/
theorem observed_collect (l : Listener π) (config : MonitorConfig) (m : Machine σ τ)
    (map : RowMap ω α) (s : σ) (p : π) (t : τ) (k : Tracked) (w : ω) :
    let out := (connectionTo l config m.connection).collect map (((s, p), (t, k)), w)
    Observed l config m.now s p k out
      (reportedResult (fun _ => .rows out.trace.rows.length) out.result) := by
  -- The query that the statement is asked for is `observe` on one whose rows are counted.
  let start := (((s, t), (w, [])) : (σ × τ) × (ω × List α))
  let run := m.connection.gather (counting map.keeping) 0
  let o := observe l config m.now .rows run (((s, p), (t, k)), (w, []))
  have reported : Observed l config m.now s p k o (reportedResult .rows (run start).result) :=
    observed_observe (silent_gather m (counting map.keeping) 0) s p t k (w, [])
  have queried : (connectionTo l config m.connection).query map.keeping (((s, p), (t, k)), (w, []))
      = ⟨o.result.map fun _ => (), o.state, o.trace⟩ := Action.run_bind_pure _ _ _
  -- The count is that of the rows of the query itself, and reporting hands over the same rows.
  let direct := m.connection.query map.keeping start
  have counted : (run start).result = direct.result.map fun () => direct.trace.rows.length :=
    congrArg Outcome.result (gather_counting m map.keeping start)
  have rows : o.trace.rows = direct.trace.rows :=
    (observe_mirrors l config m.now .rows run (((s, p), (t, k)), (w, []))).rows.trans
      (congrArg (·.trace.rows) (gather_counting m map.keeping start))
  have result : reportedResult .rows (run start).result =
      reportedResult (fun _ : List α => .rows o.trace.rows.length)
        ((o.result.map fun _ => ()).map fun () => o.state.2.2) := by
    have same : o.result = (run start).result := rfl
    rw [same, rows, counted]
    cases direct.result <;> rfl
  simp only [Connection.collect, Connection.gather, queried]
  rw [← result]
  exact ⟨reported.kept, reported.events, reported.monitor⟩

/-! ## What a step does -/

/-- What a step does to what is known of the statements, and what it reports. -/
inductive Turn (config : MonitorConfig) (now : σ → Nat) (step : Step σ τ ω α)
    (known : List Tracked) : List Event → List Tracked → Prop
  /-- A statement is prepared: its cut text is known, and that nothing is bound. -/
  | prepared {sql : String} (prepared : step.prepared? = some sql) :
      Turn config now step known [] (known ++ [⟨Utf8.cut sql config.maxSqlLength, 0⟩])
  /-- A statement cannot be prepared, which is never slow. -/
  | unprepared {sql : String} {e : SqlError} (asked : step.command = .prepare sql)
      (refused : step.outcome.result = .error e) :
      Turn config now step known
        [.started (.of (Utf8.cut sql config.maxSqlLength) 0),
          .completed (.of (Utf8.cut sql config.maxSqlLength) 0) (step.span now) (.ofError e.text)]
        known
  /-- Something is bound, perhaps at a greater index than before. -/
  | bound {n index : Nat} {k : Tracked} (binds : step.Binds n index) (opened : known[n]? = some k) :
      Turn config now step known [] (known.set n { k with bound := max k.bound index })
  /-- Something is not bound, for want of the statement or because it is refused. -/
  | unbound {n index : Nat} (asked : step.AsksToBind n index)
      (refused : step.outcome.result ≠ .ok .bound) : Turn config now step known [] known
  /-- There is no statement to run. -/
  | unknown {n : Nat} (asked : step.AsksToRun n) (unopened : known[n]? = none) :
      Turn config now step known [] known
  /-- A statement is run. -/
  | ran {n : Nat} {k : Tracked} {result : Result} (asked : step.AsksToRun n)
      (opened : known[n]? = some k) (ends : step.Ends result) :
      Turn config now step known
        (.started k.context :: ending config k.context (step.span now) result) known

/-- The result that is reported is how the step ended. -/
theorem ends_of_reported {step : Step σ τ ω α} {summary : β → Result} {answer : β → Answer α}
    {result : Except SqlError β} (ended : step.outcome.result = result.map answer)
    (ends : ∀ x, result = .ok x → step.Ends (summary x)) :
    step.Ends (reportedResult summary result) := by
  cases result with
  | ok x => exact ends x rfl
  | error e => exact .failed ended (Utf8.isDotted_iff.mpr rfl)

/-- A step on an instrumented connection takes a turn, and the monitor hears what is told of it. -/
def TakesTurn (l : Listener π) (config : MonitorConfig) (now : σ → Nat)
    (step : Step (σ × π) (τ × Tracked) ω α) : Prop :=
  ∃ es, Turn config (fun s => now s.1) step (step.before.1.statements.map Prod.snd) es
      (step.outcome.state.1.statements.map Prod.snd) ∧
    step.outcome.trace.events = config.told es ∧
    step.outcome.state.1.state.2 = hear l step.before.1.state.2 (config.told es)

/-- A turn without a report is taken when nothing is told. -/
theorem takesTurn_of_silent {l : Listener π} {config : MonitorConfig} {now : σ → Nat}
    {step : Step (σ × π) (τ × Tracked) ω α}
    (turn : Turn config (fun s => now s.1) step (step.before.1.statements.map Prod.snd) []
      (step.outcome.state.1.statements.map Prod.snd))
    (events : step.outcome.trace.events = [])
    (monitor : step.outcome.state.1.state.2 = step.before.1.state.2) :
    TakesTurn l config now step := by
  refine ⟨[], turn, ?_, ?_⟩ <;> rw [config.told_nil]
  · exact events
  · exact monitor

/-- A list maps to the same when something in it is set to what maps to the same. -/
theorem map_set_of_eq (f : α → β) {xs : List α} {n : Nat} {x y : α} (there : xs[n]? = some x)
    (same : f y = f x) : (xs.set n y).map f = xs.map f := by
  induction xs generalizing n with
  | nil => rfl
  | cons z rest ih =>
    cases n with
    | zero =>
      cases there
      exact congrArg (· :: rest.map f) same
    | succ n => exact congrArg (f z :: ·) (ih there)

/-- A statement is prepared or not. -/
theorem takesTurn_prepare (l : Listener π) (config : MonitorConfig) (m : Machine σ τ) (sql : String)
    (s : Session (σ × π) (τ × Tracked)) (w : ω) :
    TakesTurn (α := α) l config m.now ⟨.prepare sql, (s, w),
      (Session.prepare (connectionTo l config m.connection) sql).first (s, w)⟩ := by
  obtain ⟨⟨x, p⟩, statements⟩ := s
  rcases answer : m.prepare sql x with ⟨e | t, y⟩
  · simp only [Action.first, Session.prepare, prepare_connectionTo_error l config answer]
    refine ⟨_, .unprepared rfl rfl, ?_, tellAll_fst _ _ _⟩
    exact events_tellAll _ _ _
  · simp only [Action.first, Session.prepare, prepare_connectionTo_ok l config answer]
    refine takesTurn_of_silent ?_ rfl rfl
    simp only [List.map_append]
    exact .prepared rfl

/-- Something is bound or not. -/
theorem takesTurn_track (l : Listener π) (config : MonitorConfig) (now : σ → Nat)
    {command : Command} {n index : Nat} {a : Action (σ × τ) Unit} (silent : Silent a)
    (s : Session (σ × π) (τ × Tracked)) (w : ω)
    (asked : (∃ v, command = .bind n index v) ∨ ∃ t, command = .bindNull n index t) :
    TakesTurn (α := α) l config now ⟨command, (s, w),
      withStatement n (fun () => .bound) (track index a).first (s, w)⟩ := by
  cases opened : s.statements[n]? with
  | none =>
    rw [withStatement_none opened]
    exact takesTurn_of_silent (.unbound asked nofun) rfl rfl
  | some x =>
    obtain ⟨t, k⟩ := x
    let out := a (s.state.1, t)
    have known : (s.statements.map Prod.snd)[n]? = some k := by
      rw [List.getElem?_map, opened, Option.map_some]
    -- The index is remembered only when it could be bound, so the memory depends on the result.
    cases result : out.result with
    | ok done =>
      have bound : withStatement (α := α) n (fun () => .bound) (track index a).first (s, w) =
          let k' : Tracked := { k with bound := max k.bound index }
          ⟨.ok .bound, (⟨(out.state.1, s.state.2), s.statements.set n (out.state.2, k')⟩, w),
            out.trace⟩ := by
        rw [withStatement_some opened]
        simp [Action.first, track, result, out, Except.map]
      rw [bound]
      refine takesTurn_of_silent ?_ (silent _) rfl
      simp only [List.map_set]
      exact .bound ⟨asked, rfl⟩ known
    | error e =>
      have unbound : withStatement (α := α) n (fun () => .bound) (track index a).first (s, w) =
          ⟨.error e, (⟨(out.state.1, s.state.2), s.statements.set n (out.state.2, k)⟩, w),
            out.trace⟩ := by
        rw [withStatement_some opened]
        simp [Action.first, track, result, out, Except.map]
      have unchanged : (s.statements.set n (out.state.2, k)).map Prod.snd =
          s.statements.map Prod.snd := map_set_of_eq Prod.snd opened rfl
      rw [unbound]
      refine takesTurn_of_silent ?_ (silent _) rfl
      simp only [unchanged]
      exact .unbound asked nofun

/-- A statement is run, if there is one. -/
theorem takesTurn_observed (l : Listener π) (config : MonitorConfig) (now : σ → Nat)
    {command : Command} {n : Nat} {a : Action (((σ × π) × (τ × Tracked)) × ω) β}
    {answer : β → Answer α} (summary : Trace → β → Result)
    (s : Session (σ × π) (τ × Tracked)) (w : ω)
    (asked : command = .update n ∨ command = .query n)
    (observed : ∀ t k, let out := a ((s.state, (t, k)), w)
      Observed l config now s.state.1 s.state.2 k out
        (reportedResult (summary out.trace) out.result))
    (ends : ∀ (step : Step (σ × π) (τ × Tracked) ω α) x, step.outcome.result = .ok (answer x) →
      step.Ends (summary step.outcome.trace x)) :
    TakesTurn l config now ⟨command, (s, w), withStatement n answer a (s, w)⟩ := by
  cases opened : s.statements[n]? with
  | none =>
    rw [withStatement_none opened]
    have unopened : (s.statements.map Prod.snd)[n]? = none := by
      rw [List.getElem?_map, opened, Option.map_none]
    exact takesTurn_of_silent (.unknown asked unopened) rfl rfl
  | some x =>
    obtain ⟨t, k⟩ := x
    rw [withStatement_some opened]
    obtain ⟨kept, events, monitor⟩ := observed t k
    have known : (s.statements.map Prod.snd)[n]? = some k := by
      rw [List.getElem?_map, opened, Option.map_some]
    have unchanged : (s.statements.set n (a ((s.state, (t, k)), w)).state.1.2).map Prod.snd =
        s.statements.map Prod.snd := map_set_of_eq Prod.snd opened kept
    refine ⟨_, ?_, events, monitor.trans (congrArg _ events)⟩
    show Turn _ _ _ _ _ ((s.statements.set n _).map Prod.snd)
    rw [unchanged]
    exact .ran asked known (ends_of_reported rfl fun y done =>
      ends _ y (congrArg (Except.map answer) done))

/-- **What a step does** on an instrumented connection: one turn, whatever the command. -/
theorem takesTurn_performWith (l : Listener π) (config : MonitorConfig) (m : Machine σ τ)
    (map : RowMap ω α) (command : Command) (s : Session (σ × π) (τ × Tracked)) (w : ω) :
    TakesTurn l config m.now
      ⟨command, (s, w), performWith (connectionTo l config m.connection) map command (s, w)⟩ := by
  cases command with
  | prepare sql => exact takesTurn_prepare l config m sql s w
  | bind n index v => exact takesTurn_track l config m.now (fun _ => rfl) s w (.inl ⟨v, rfl⟩)
  | bindNull n index t => exact takesTurn_track l config m.now (fun _ => rfl) s w (.inr ⟨t, rfl⟩)
  | update n =>
    exact takesTurn_observed l config m.now (fun _ => .affected) s w (.inl rfl)
      (fun t k => observed_update l config m s.state.1 s.state.2 t k w)
      (fun _ _ done => .affected done)
  | query n =>
    exact takesTurn_observed l config m.now (fun trace _ => .rows trace.rows.length) s w (.inr rfl)
      (fun t k => observed_collect l config m map s.state.1 s.state.2 t k w)
      (fun _ _ done => .rows done)

end Instrumented

end BoundSql
