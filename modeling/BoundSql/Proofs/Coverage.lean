import BoundSql.Proofs.Observation
import BoundSql.Proofs.Protocol
import BoundSql.Proofs.Statistics

/-!
# Which runs are reported

A run of a statement on an instrumented connection is reported when it comes to an end in one of two
places: the statement cannot be prepared, or it is run, whatever comes of that.  In between its
parameters are bound, and a parameter that is refused ends the run without a word to the monitor
(`Run.refused_parameter_unreported`).

`Run.reported_iff` says that this is the only gap: a run is reported, as started and then as
completed, with an error just when it failed, unless a parameter is refused.  Over any number of
runs, a statistics monitor therefore counts all runs, and all failed runs, but those.

Binding is quiet whatever it is made of (`Quiet.bind`), so the cases are those of the protocol: the
statement is not prepared, not all of its parameters are bound, or it is run
(`Instrumented.covers_prepared`).
-/

namespace BoundSql

open Monitor

variable {σ τ ω π α β : Type}

/-! ## Parameters that are refused -/

namespace Machine

theorem BindsAll.unique {m : Machine σ τ} {index : Nat} {ps : List Param} {x y z : σ × τ}
    (one : m.BindsAll index ps x y) (other : m.BindsAll index ps x z) : y = z := by
  induction one with
  | nil =>
    cases other
    rfl
  | cons bound _ ih =>
    cases other with
    | cons bound' rest' =>
      rw [bound] at bound'
      cases bound'
      exact ih rest'

/-- When all of some parameters are bound, so is the first of the later ones, after the earlier. -/
theorem BindsAll.split {m : Machine σ τ} {index : Nat} {before after : List Param} {p : Param}
    {x z : σ × τ} (bound : m.BindsAll index (before ++ p :: after) x z) :
    ∃ y u, m.BindsAll index before x y ∧ m.bind (index + before.length) p y = (.ok (), u) := by
  induction before generalizing index x with
  | nil =>
    cases bound with
    | cons first _ => exact ⟨x, _, .nil, first⟩
  | cons q before ih =>
    cases bound with
    | cons first rest =>
      obtain ⟨y, u, earlier, last⟩ := ih rest
      rw [Nat.add_assoc, Nat.add_comm 1, ← List.length_cons] at last
      exact ⟨y, u, .cons first earlier, last⟩

/-- Parameters are not both bound and refused. -/
theorem Binds.not_error {m : Machine σ τ} {index : Nat} {ps : List Param} {x z : σ × τ}
    {calls calls' : List Call} {e : SqlError} (bound : m.Binds index ps x calls (.ok z)) :
    ¬ m.Binds index ps x calls' (.error e) := by
  rintro (_ | ⟨split, earlier, refused⟩)
  subst split
  cases bound with
  | all all =>
    obtain ⟨y, u, earlier', accepted⟩ := all.split
    rw [earlier.unique earlier', accepted] at refused
    cases refused

/-- The statement can be prepared, but one of its parameters is refused. -/
def RefusesParameter (m : Machine σ τ) (s : Statement) (x : σ) : Prop :=
  ∃ t y calls e, m.prepare s.sql x = (.ok t, y) ∧ m.Binds 1 s.params (y, t) calls (.error e)

theorem not_refusesParameter_of_unprepared {m : Machine σ τ} {s : Statement} {x y : σ}
    {e : SqlError} (answer : m.prepare s.sql x = (.error e, y)) : ¬ m.RefusesParameter s x := by
  rintro ⟨t, z, calls, e, prepared, -⟩
  rw [answer] at prepared
  cases prepared

/-- A parameter is refused just when binding all of them fails. -/
theorem refusesParameter_iff {m : Machine σ τ} {s : Statement} {x y : σ} {t : τ}
    (answer : m.prepare s.sql x = (.ok t, y)) :
    m.RefusesParameter s x ↔
      (Statement.bindFrom m.connection 1 s.params (y, t)).result.isOk = false := by
  obtain ⟨binds, -⟩ := Statement.binds_bindFrom m 1 s.params (y, t)
  cases result : (Statement.bindFrom m.connection 1 s.params (y, t)).result with
  | ok done =>
    rw [result] at binds
    refine ⟨?_, nofun⟩
    rintro ⟨t', y', calls, e, answer', refused⟩
    rw [answer] at answer'
    cases answer'
    exact absurd refused binds.not_error
  | error e =>
    rw [result] at binds
    exact ⟨fun _ => rfl, fun _ => ⟨t, y, _, e, answer, binds⟩⟩

instance (m : Machine σ τ) (s : Statement) (x : σ) : Decidable (m.RefusesParameter s x) :=
  match answer : m.prepare s.sql x with
  | (.ok _, _) => decidable_of_iff _ (refusesParameter_iff answer).symm
  | (.error _, _) => .isFalse (not_refusesParameter_of_unprepared answer)

end Machine

namespace Instrumented

/-! ## What is told of a run -/

/-- What is told of one run: that it starts, then that it completes, with an error just when it
failed, and perhaps that it was slow. -/
inductive TellsRun (failed : Bool) : List Event → Prop
  | told {c : Context} {d : Duration} {r : Result} {late : List Event}
      (ended : r.isError = failed) (slow : late = [] ∨ late = [.slow c d]) :
      TellsRun failed (.started c :: .completed c d r :: late)

theorem not_tellsRun_nil {failed : Bool} : ¬ TellsRun failed [] := by
  intro told
  cases told

/-- What is told of a run on a machine: all of it, unless a parameter is refused. -/
inductive Covers (m : Machine σ τ) (s : Statement) (x : σ) (failed : Bool) : List Event → Prop
  | reported {es : List Event} (bound : ¬ m.RefusesParameter s x) (told : TellsRun failed es) :
      Covers m s x failed es
  | unreported (refused : m.RefusesParameter s x) (fails : failed = true) : Covers m s x failed []

theorem isError_reportedResult {summary : α → Result} (success : ∀ x, (summary x).isError = false)
    (result : Except SqlError α) : (reportedResult summary result).isError = !result.isOk := by
  cases result with
  | ok x => exact success x
  | error e => rfl

theorem tellsRun_ending (config : MonitorConfig) (c : Context) (d : Duration) {r : Result}
    {failed : Bool} (ended : r.isError = failed) :
    TellsRun failed (.started c :: ending config c d r) := by
  refine .told ended ?_
  split
  · exact .inr rfl
  · exact .inl rfl

/-- An action on a statement leaves no events, and the monitor alone. -/
def Quiet (a : Action ((σ × π) × (τ × Tracked)) α) : Prop :=
  ∀ x, (a x).trace.events = [] ∧ (a x).state.1.2 = x.1.2

theorem Quiet.bind {a : Action ((σ × π) × (τ × Tracked)) α}
    {f : α → Action ((σ × π) × (τ × Tracked)) β} (first : Quiet a) (rest : ∀ x, Quiet (f x)) :
    Quiet (a >>= f) := by
  intro x
  obtain ⟨events, monitor⟩ := first x
  rw [Action.run_bind]
  cases (a x).result with
  | error e => exact ⟨events, monitor⟩
  | ok y =>
    obtain ⟨events', monitor'⟩ := rest y (a x).state
    exact ⟨by rw [Trace.events_append, events, events']; rfl, monitor'.trans monitor⟩

theorem quiet_track (index : Nat) {a : Action (σ × τ) Unit} (silent : Silent a) :
    Quiet (π := π) (track index a) :=
  fun ((s, _), (t, _)) => ⟨silent (s, t), rfl⟩

/-- **Binding is quiet**, also when it fails. -/
theorem quiet_bindFrom (l : Listener π) (config : MonitorConfig) (m : Machine σ τ) (index : Nat)
    (ps : List Param) :
    Quiet (Statement.bindFrom (connectionTo l config m.connection) index ps) := by
  induction ps generalizing index with
  | nil => exact fun _ => ⟨rfl, rfl⟩
  | cons p ps ih =>
    refine Quiet.bind ?_ fun () => ih (index + 1)
    cases p with
    | value v => exact quiet_track index fun _ => rfl
    | null t => exact Quiet.bind (fun _ => ⟨rfl, rfl⟩) fun () => quiet_track index fun _ => rfl

/-! ## What is told of a run on a machine -/

/-- **What is told of a statement that is prepared, bound and run**: all of it, unless a parameter
is refused, when `run` itself is reported. -/
theorem covers_prepared (l : Listener π) (config : MonitorConfig) (m : Machine σ τ) (s : Statement)
    {run : Action (((σ × π) × (τ × Tracked)) × ω) α}
    (observed : ∀ x p t k w, ∃ result,
      Observed l config m.now x p k (run (((x, p), (t, k)), w)) result ∧
        result.isError = !(run (((x, p), (t, k)), w)).result.isOk)
    (x : σ) (p : π) (w : ω) :
    let out := s.prepared (connectionTo l config m.connection) run ((x, p), w)
    out.state.1.2 = hear l p out.trace.events ∧
      ∃ es, Covers m s x (!out.result.isOk) es ∧ out.trace.events = config.told es := by
  rcases answer : m.prepare s.sql x with ⟨e | t, y⟩
  · let c := Context.of (Utf8.cut s.sql config.maxSqlLength) 0
    let es : List Event := [.started c, .completed c ⟨m.now y - m.now x⟩ (.ofError e.text)]
    have events : Trace.events (.called (.prepare s.sql) :: (tellAll l p (config.told es)).2) =
        config.told es := events_tellAll l p _
    rw [Statement.prepared_refused s _ run (x, p) w (prepare_connectionTo_error l config answer p)]
    refine ⟨?_, es, .reported (Machine.not_refusesParameter_of_unprepared answer)
      (.told rfl (.inl rfl)), events⟩
    rw [events]
    exact tellAll_fst l p _
  · let k : Tracked := ⟨Utf8.cut s.sql config.maxSqlLength, 0⟩
    have quiet := quiet_bindFrom l config m 1 s.params ((y, p), (t, k))
    have same : (Statement.bindFrom (connectionTo l config m.connection) 1 s.params
        ((y, p), (t, k))).result = (Statement.bindFrom m.connection 1 s.params (y, t)).result :=
      (congrFun Except.map_id _).symm.trans
        (Statement.bindFrom_mirrors (connectionTo_mirrors l config m) 1 s.params _).result
    rw [Statement.prepared_run s _ run (x, p) w (prepare_connectionTo_ok l config answer p)]
    -- From here on only this counts of how the parameters are bound: nothing is told meanwhile, and
    -- it fails just when it fails on the machine.
    revert quiet same
    generalize Statement.bindFrom (connectionTo l config m.connection) 1 s.params
      ((y, p), (t, k)) = bound
    obtain ⟨result, ⟨⟨z, p'⟩, t', k'⟩, trace⟩ := bound
    rintro ⟨silent, alone⟩ same
    cases alone
    cases result with
    | error e =>
      have refused : m.RefusesParameter s x := by
        rw [Machine.refusesParameter_iff answer, ← same]
        rfl
      have events : Trace.events (.called (.prepare s.sql) :: trace) = [] := silent
      simp only [List.singleton_append, events]
      exact ⟨rfl, [], .unreported refused rfl, config.told_nil.symm⟩
    | ok done =>
      have accepted : ¬ m.RefusesParameter s x := by
        rw [Machine.refusesParameter_iff answer, ← same]
        intro refused
        cases refused
      obtain ⟨result, ⟨kept, told, monitor⟩, ended⟩ := observed z p t' k' w
      simp only [Trace.events_append, silent]
      exact ⟨monitor, _, .reported accepted (tellsRun_ending config _ _ ended), told⟩

/-- Log entries are not events. -/
theorem events_logged {ρ : Type} (s : Statement) (mode : RunMode) (count : α → Nat)
    (run : Action ρ α) (x : ρ) :
    (s.logged mode count run x).trace.events = (run x).trace.events := by
  rw [Statement.logged_eq]
  exact (Trace.events_append _ _).trans (List.append_nil _)

end Instrumented

/-! ## Runs -/

/-- A run of a statement, for its effect or for its rows. -/
inductive Run : Type 1 where
  | effect (s : Statement)
  | rows {ω α : Type} (s : Statement) (map : RowMap ω α) (w : ω)

namespace Run

open Instrumented

/-- The statement that is run. -/
def statement : Run → Statement
  | .effect s => s
  | .rows s _ _ => s

/-- Carry out a run, and drop what it is worth. -/
def perform (c : Connection σ τ) (r : Run) : Action σ Unit := fun x =>
  match r with
  | .effect s =>
    let out := s.execute c x
    ⟨out.result.map fun _ => (), out.state, out.trace⟩
  | .rows s map w =>
    let out := s.fetchWith c map (x, w)
    ⟨out.result.map fun _ => (), out.state.1, out.trace⟩

/-- A run that was carried out: in which state, and how it ended. -/
structure Step (σ : Type) where
  run : Run
  before : σ
  outcome : Outcome σ Unit

/-- Whether the run failed. -/
def Step.failed (step : Step σ) : Bool :=
  !step.outcome.result.isOk

/-- Carry out runs in turn, whether they fail or not; and the state after all of them. -/
def performAll (c : Connection σ τ) : List Run → σ → List (Step σ) × σ
  | [], x => ([], x)
  | r :: rest, x =>
    let out := r.perform c x
    let (steps, last) := performAll c rest out.state
    (⟨r, x, out⟩ :: steps, last)

theorem isOk_map (f : α → β) (result : Except SqlError α) : (result.map f).isOk = result.isOk := by
  cases result <;> rfl

/-- **What is told of a run**, for the effect or for the rows. -/
theorem covers_perform (l : Listener π) (config : MonitorConfig) (m : Machine σ τ) (r : Run)
    (x : σ) (p : π) :
    let out := r.perform (connectionTo l config m.connection) (x, p)
    out.state.2 = hear l p out.trace.events ∧
      ∃ es, Covers m r.statement x (!out.result.isOk) es ∧ out.trace.events = config.told es := by
  cases r with
  | effect s =>
    obtain ⟨result, state, -, -⟩ := Statement.logged_run s .statement id
      (s.prepared (connectionTo l config m.connection)
        (connectionTo l config m.connection).update.first) ((x, p), ())
    simp only [perform, Statement.execute, Action.within, isOk_map, result, state, events_logged]
    exact covers_prepared l config m s (fun x p t k w =>
      ⟨_, observed_update l config m x p t k w, isError_reportedResult (fun _ => rfl) _⟩) x p ()
  | rows s map w =>
    obtain ⟨result, state, -, -⟩ := Statement.logged_run s .query List.length
      (s.prepared (connectionTo l config m.connection)
        ((connectionTo l config m.connection).collect map)) ((x, p), w)
    simp only [perform, Statement.fetchWith, isOk_map, result, state, events_logged]
    exact covers_prepared l config m s (fun x p t k w =>
      ⟨_, observed_collect l config m map x p t k w, isError_reportedResult (fun _ => rfl) _⟩) x p w

/-! ## Runs in turn -/

/-- The monitor that keeps statistics. -/
def tallying : Listener Tally := fun t e => (t.receive e, [])

/-- What is told of one run counts once, and once more as a failure when the run failed. -/
theorem tally_of_tellsRun {failed : Bool} {es : List Event} (told : TellsRun failed es)
    (t : Tally) :
    (hear tallying t es).total = t.total + 1 ∧
      (hear tallying t es).failed = Tally.plus t.failed failed := by
  obtain @⟨c, d, r, late, rfl, slow⟩ := told
  have completed : hear tallying t [.started c, .completed c d r] =
      t.receive (.completed c d r) := rfl
  -- That the run was slow changes neither word.
  have same : (hear tallying t (.started c :: .completed c d r :: late)).total =
      (t.receive (.completed c d r)).total ∧
      (hear tallying t (.started c :: .completed c d r :: late)).failed =
      (t.receive (.completed c d r)).failed := by
    rcases slow with rfl | rfl <;> exact ⟨rfl, rfl⟩
  rw [same.1, same.2, Tally.receive_completed]
  exact ⟨rfl, rfl⟩

/-- A run that is reported. -/
def Step.reported (m : Machine σ τ) (step : Step (σ × π)) : Bool :=
  !decide (m.RefusesParameter step.run.statement step.before.1)

/-- One run counts unless a parameter is refused. -/
theorem tally_perform {config : MonitorConfig} (enabled : config.enabled = true) (m : Machine σ τ)
    (r : Run) (x : σ) (t : Tally) :
    let out := r.perform (connectionTo tallying config m.connection) (x, t)
    let step : Step (σ × Tally) := ⟨r, (x, t), out⟩
    out.state.2.total = Tally.plus t.total (step.reported m) ∧
      out.state.2.failed = Tally.plus t.failed (step.reported m && step.failed) := by
  obtain ⟨heard, es, covers, events⟩ := covers_perform tallying config m r x t
  rw [MonitorConfig.told, if_pos enabled] at events
  simp only [heard, events, Step.reported, Step.failed]
  rcases covers with ⟨bound, told⟩ | ⟨refused, fails⟩
  · obtain ⟨total, failed⟩ := tally_of_tellsRun told t
    simp [total, failed, bound, Tally.plus]
  · simp [refused, Tally.plus, hear]

/-- **Runs in turn** count, and count as failures, unless a parameter is refused. -/
theorem tally_performAll {config : MonitorConfig} (enabled : config.enabled = true)
    (m : Machine σ τ) (runs : List Run) (x : σ) (t : Tally) :
    let (steps, last) := performAll (connectionTo tallying config m.connection) runs (x, t)
    last.2.total = t.total + UInt64.ofNat (steps.countP (Step.reported m)) ∧
      last.2.failed =
        t.failed + UInt64.ofNat (steps.countP fun step => step.reported m && step.failed) := by
  induction runs generalizing x t with
  | nil => simp [performAll]
  | cons r rest ih =>
    obtain ⟨total, failed⟩ := tally_perform enabled m r x t
    obtain ⟨totals, failures⟩ :=
      ih (r.perform (connectionTo tallying config m.connection) (x, t)).state.1
        (r.perform (connectionTo tallying config m.connection) (x, t)).state.2
    simp only [performAll, List.countP_cons]
    rw [totals, failures, total, failed, Tally.plus_add, Tally.plus_add]
    exact ⟨rfl, rfl⟩

/-- **A run is reported unless a parameter is refused.**  On an instrumented connection with
monitoring on, whatever the machine answers and whatever the monitor, a run is told as one start and
one completion, with an error just when the run failed, if and only if no parameter is refused;
otherwise nothing is told of it, although it failed.  Over runs in turn, the numbers of all and of
failed statements grow by the numbers of all and of failed runs in which no parameter is refused. -/
theorem reported_iff (config : MonitorConfig) (enabled : config.enabled = true)
    (m : Machine σ τ) :
    (∀ {π : Type} (l : Listener π) (r : Run) (x : σ) (p : π),
      let out := r.perform (connectionTo l config m.connection) (x, p)
      out.state.2 = hear l p out.trace.events ∧
        (TellsRun (!out.result.isOk) out.trace.events ↔ ¬ m.RefusesParameter r.statement x) ∧
        (m.RefusesParameter r.statement x → out.result.isOk = false ∧ out.trace.events = [])) ∧
    ∀ (runs : List Run) (x : σ) (t : Tally),
      let (steps, last) := performAll (connectionTo tallying config m.connection) runs (x, t)
      last.2.total = t.total + UInt64.ofNat (steps.countP (Step.reported m)) ∧
        last.2.failed =
          t.failed + UInt64.ofNat (steps.countP fun step => step.reported m && step.failed) := by
  refine ⟨fun l r x p => ?_, tally_performAll enabled m⟩
  obtain ⟨heard, es, covers, events⟩ := covers_perform l config m r x p
  rw [MonitorConfig.told, if_pos enabled] at events
  refine ⟨heard, ?_⟩
  simp only [events]
  rcases covers with ⟨bound, told⟩ | ⟨refused, fails⟩
  · exact ⟨iff_of_true told bound, fun refused => absurd refused bound⟩
  · refine ⟨iff_of_false not_tellsRun_nil (not_not_intro refused), fun _ => ⟨?_, rfl⟩⟩
    simpa using fails

/-- An UPDATE whose parameter is refused, and a SELECT that has none and that fails. -/
theorem reported_iff_update_select :
    let m := Script.machine { bindError? := some (1, "refused"), runError? := some "locked" }
    let update : Statement := ⟨.updateSet, "UPDATE\n    T\nSET\n    A = ?\n", [.value (.int 1)]⟩
    let select : Statement := ⟨.selectFrom, "SELECT\n    *\nFROM\n    T\n", []⟩
    let runs : List Run := [.effect update, .rows select (.ofFun fun _ => .ok ()) ()]
    let (_, last) := performAll (connectionTo tallying { enabled := true } m.connection) runs
      (0, .zero)
    m.RefusesParameter update 0 ∧ ¬ m.RefusesParameter select 0 ∧
      last.2.total = 1 ∧ last.2.failed = 1 := by
  intro m update select runs
  obtain ⟨total, failed⟩ := (reported_iff { enabled := true } rfl m).2 runs 0 .zero
  refine ⟨by decide, by decide, ?_, ?_⟩
  · exact total.trans (by decide)
  · exact failed.trans (by decide)

/-- **A refused parameter goes unreported**: an UPDATE fails because of it, and the monitor hears
nothing, so its statistics count neither the run nor the failure. -/
theorem refused_parameter_unreported :
    ∃ s : Statement,
      Statement.build [.update { name := "T" },
        .assign [.of { name := "A", type := .bigInt } (some (.int 1))]] = .ok (some s) ∧
      let m := Script.machine { bindError? := some (1, "bad bind") }
      let out := (Run.effect s).perform
        (connectionTo tallying { enabled := true } m.connection) (0, .zero)
      out.result = .error (.connection "bad bind") ∧ out.trace.events = [] ∧
        ¬ TellsRun true out.trace.events ∧ out.state.2.total = 0 ∧ out.state.2.failed = 0 :=
  ⟨_, rfl, rfl, rfl, not_tellsRun_nil, rfl, rfl⟩

end Run

end BoundSql
