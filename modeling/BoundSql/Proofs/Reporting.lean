import BoundSql.Connection.Scripted
import BoundSql.Proofs.Observation
import Mathlib.Order.Bounds.Basic

/-!
# What monitors are told

The events of a session on an instrumented connection can be read off its steps: what was asked, how
it ended, how many rows were handed over and how long it took by the clock.  `Reports` says how.  A
failure to prepare and every run of an open statement are a block of events, and anything else is
silent.  All events of a block have one context.  It shows the text that the statement was prepared
with, cut to the limit, and the kind of what is left (`Context.Shows`), and the greatest index that
was bound to the statement before.

The connection does not look back at all of this, it goes by what it remembers.  `Tracks` says what
its memory is worth after a number of steps; `Tracks.turn` keeps that up from step to step, and
`Turn.reports` reads the report of a step off it.  The run lemma `takesTurn_performAll` is an
induction on the commands, and `reports_performAll` starts it from a session with no statements.
-/

namespace BoundSql

open Monitor

variable {σ τ ω π α β : Type}

/-! ## What is to be reported -/

namespace Session

/-- The texts that statements were prepared with, in the order of the numbers of the statements. -/
def texts (past : List (Step σ τ ω α)) : List String :=
  past.filterMap Step.prepared?

/-- Zero, and the indices at which something was bound to a statement. -/
def boundIndices (past : List (Step σ τ ω α)) (n : Nat) : Set Nat :=
  {index | index = 0 ∨ ∃ step ∈ past, step.Binds n index}

end Session

open Session

/-- A context is about a text: it shows the longest beginning of it that takes at most `limit`
bytes, and the kind of what it shows. -/
structure Monitor.Context.Shows (c : Context) (limit : Nat) (text : String) : Prop where
  sql : Utf8.IsCut limit text c.sql
  kind : c.kind = Kind.ofSql c.sql
  untagged : c.tag? = none

theorem Monitor.Context.shows_of (limit : Nat) (text : String) (count : Nat) :
    (Context.of (Utf8.cut text limit) count).Shows limit text where
  sql := Utf8.isCut_cut limit text
  kind := by rw [Context.of]
  untagged := rfl

namespace Instrumented

/-- What is to be reported of a step, after all that was done before it. -/
inductive Reports (config : MonitorConfig) (now : σ → Nat) (past : List (Step σ τ ω α))
    (step : Step σ τ ω α) : List Event → Prop
  /-- A statement cannot be prepared: nothing was bound to it, and the error is told. -/
  | unprepared {sql message : String} {e : SqlError} {c : Context}
      (asked : step.command = .prepare sql) (refused : step.outcome.result = .error e)
      (context : c.Shows config.maxSqlLength sql) (unbound : c.paramCount = 0)
      (told : Utf8.IsDotted 512 e.text message) :
      Reports config now past step [.started c, .completed c (step.span now) (.error message)]
  /-- A statement that was prepared is run, with the greatest index that was bound to it so far. -/
  | ran {n : Nat} {sql : String} {c : Context} {result : Result} {slow : List Event}
      (asked : step.AsksToRun n) (opened : (texts past)[n]? = some sql)
      (context : c.Shows config.maxSqlLength sql)
      (greatest : IsGreatest (boundIndices past n) c.paramCount) (ends : step.Ends result)
      (late : config.Exceeded (step.span now) ∧ slow = [.slow c (step.span now)] ∨
        ¬ config.Exceeded (step.span now) ∧ slow = []) :
      Reports config now past step
        (.started c :: .completed c (step.span now) result :: slow)
  /-- A statement is prepared. -/
  | prepared {sql : String} (prepared : step.prepared? = some sql) :
      Reports config now past step []
  /-- Something is bound or not. -/
  | bind {n index : Nat} (asked : step.AsksToBind n index) : Reports config now past step []
  /-- There is no statement to run. -/
  | unknown {n : Nat} (asked : step.AsksToRun n) (unopened : (texts past)[n]? = none) :
      Reports config now past step []

/-! ## What is known after a number of steps -/

/-- What is known of the statements is right after a number of steps. -/
structure Tracks (config : MonitorConfig) (past : List (Step σ τ ω α)) (known : List Tracked) :
    Prop where
  sql : known.map Tracked.sql = (texts past).map (Utf8.cut · config.maxSqlLength)
  -- A statement that is prepared later must not find anything bound to its number.
  opened : ∀ step ∈ past, ∀ n index, step.Binds n index → n < known.length
  greatest : ∀ n k, known[n]? = some k → IsGreatest (boundIndices past n) k.bound

section Steps

variable {config : MonitorConfig} {now : σ → Nat} {past : List (Step σ τ ω α)}
  {step : Step σ τ ω α} {known known' : List Tracked} {es : List Event} {n index : Nat}

theorem texts_append (past : List (Step σ τ ω α)) (step : Step σ τ ω α) :
    texts (past ++ [step]) = texts past ++ step.prepared?.toList := by
  rw [texts, List.filterMap_append, ← texts]
  cases prepared : step.prepared? <;> simp [prepared]

theorem mem_boundIndices :
    index ∈ boundIndices past n ↔ index = 0 ∨ ∃ step ∈ past, step.Binds n index := Iff.rfl

/-- A step binds at most once. -/
theorem binds_unique {n' index' : Nat} (binds : step.Binds n index)
    (again : step.Binds n' index') : n' = n ∧ index' = index := by
  obtain ⟨⟨v, asked⟩ | ⟨t, asked⟩, -⟩ := binds <;>
    obtain ⟨⟨v', asked'⟩ | ⟨t', asked'⟩, -⟩ := again <;> rw [asked] at asked' <;> cases asked' <;>
      exact ⟨rfl, rfl⟩

theorem boundIndices_append_of_binds (binds : step.Binds n index) :
    boundIndices (past ++ [step]) n = insert index (boundIndices past n) := by
  ext i
  have now : step.Binds n i ↔ i = index :=
    ⟨fun again => (binds_unique binds again).2, fun same => same ▸ binds⟩
  simp only [mem_boundIndices, Set.mem_insert_iff, List.mem_append, List.mem_singleton,
    or_and_right, exists_or, exists_eq_left, now]
  exact or_assoc.symm.trans or_comm

theorem boundIndices_append_of_not_binds (not : ∀ index, ¬ step.Binds n index) :
    boundIndices (past ++ [step]) n = boundIndices past n := by
  ext index
  simp [mem_boundIndices, or_and_right, exists_or, not]

theorem prepared?_of_asksToBind (asked : step.AsksToBind n index) : step.prepared? = none := by
  rcases asked with ⟨v, asked⟩ | ⟨t, asked⟩ <;> simp [Step.prepared?, asked]

theorem not_binds_of_prepared {sql : String} (prepared : step.prepared? = some sql)
    (n index : Nat) : ¬ step.Binds n index := by
  rintro ⟨asked, -⟩
  rw [prepared?_of_asksToBind asked] at prepared
  cases prepared

theorem Tracks.nil (config : MonitorConfig) : Tracks config ([] : List (Step σ τ ω α)) [] where
  sql := rfl
  opened _ inside := absurd inside List.not_mem_nil
  greatest _ _ there := by cases there

/-- What is bound after one more step is bound to a known statement, if the step binds to one. -/
theorem Tracks.opened_append (tracks : Tracks config past known)
    (longer : known.length ≤ known'.length)
    (last : ∀ n index, step.Binds n index → n < known'.length) :
    ∀ earlier ∈ past ++ [step], ∀ n index, earlier.Binds n index → n < known'.length := by
  intro earlier inside n index binds
  rcases List.mem_append.mp inside with inside | inside
  · exact Nat.lt_of_lt_of_le (tracks.opened earlier inside n index binds) longer
  · rw [List.mem_singleton.mp inside] at binds
    exact last n index binds

/-- Nothing is bound to a statement before it is known. -/
theorem Tracks.boundIndices_of_length_le (tracks : Tracks config past known)
    (unopened : known.length ≤ n) : boundIndices past n = {0} := by
  ext index
  refine ⟨?_, .inl⟩
  rintro (zero | ⟨earlier, inside, binds⟩)
  · exact zero
  · exact absurd (tracks.opened earlier inside n index binds) (Nat.not_lt.mpr unopened)

/-- Nothing becomes known by a step that neither prepares nor binds. -/
theorem Tracks.quiet (tracks : Tracks config past known) (unprepared : step.prepared? = none)
    (unbound : ∀ n index, ¬ step.Binds n index) : Tracks config (past ++ [step]) known where
  sql := by
    rw [texts_append, unprepared, Option.toList_none, List.append_nil]
    exact tracks.sql
  opened := tracks.opened_append (Nat.le_refl _) fun n index binds => absurd binds (unbound n index)
  greatest n k there := by
    rw [boundIndices_append_of_not_binds (unbound n)]
    exact tracks.greatest n k there

theorem Tracks.quiet_of_asksToRun (tracks : Tracks config past known)
    (asked : step.AsksToRun n) : Tracks config (past ++ [step]) known := by
  refine tracks.quiet ?_ ?_
  · rcases asked with asked | asked <;> simp [Step.prepared?, asked]
  · rintro n index ⟨⟨v, bind⟩ | ⟨t, bind⟩, -⟩ <;>
      rcases asked with asked | asked <;> rw [asked] at bind <;> cases bind

/-- A statement that is prepared becomes known by its cut text. -/
theorem Tracks.prepared (tracks : Tracks config past known) {sql : String}
    (prepared : step.prepared? = some sql) :
    Tracks config (past ++ [step]) (known ++ [⟨Utf8.cut sql config.maxSqlLength, 0⟩]) where
  sql := by
    rw [texts_append, prepared, List.map_append, List.map_append, tracks.sql]
    rfl
  opened := by
    refine tracks.opened_append ?_ fun n index binds =>
      absurd binds (not_binds_of_prepared prepared n index)
    rw [List.length_append]
    exact Nat.le_add_right _ _
  greatest n k there := by
    rw [boundIndices_append_of_not_binds (not_binds_of_prepared prepared n)]
    rcases Nat.lt_or_ge n known.length with old | new
    · rw [List.getElem?_append_left old] at there
      exact tracks.greatest n k there
    · rw [List.getElem?_append_right new] at there
      rw [tracks.boundIndices_of_length_le new,
        List.mem_singleton.mp (List.mem_of_getElem? there)]
      exact isGreatest_singleton

/-- What is bound to one statement changes nothing for the others. -/
theorem Tracks.bound (tracks : Tracks config past known) {k : Tracked}
    (binds : step.Binds n index) (opened : known[n]? = some k) :
    Tracks config (past ++ [step]) (known.set n { k with bound := max k.bound index }) where
  sql := by
    rw [texts_append, prepared?_of_asksToBind binds.asked, Option.toList_none, List.append_nil,
      ← tracks.sql]
    exact map_set_of_eq Tracked.sql opened rfl
  opened := by
    obtain ⟨inside, -⟩ := List.getElem?_eq_some_iff.mp opened
    rw [List.length_set]
    refine tracks.opened_append (Nat.le_refl _) fun n' index' again => ?_
    rw [(binds_unique binds again).1]
    exact inside
  greatest n' k' there := by
    obtain ⟨inside, -⟩ := List.getElem?_eq_some_iff.mp opened
    by_cases same : n' = n
    · subst same
      rw [List.getElem?_set_self inside] at there
      cases there
      rw [boundIndices_append_of_binds binds, max_comm]
      exact (tracks.greatest n' k opened).insert index
    · rw [List.getElem?_set_ne (Ne.symm same)] at there
      have elsewhere : ∀ i, ¬ step.Binds n' i := fun i again => same (binds_unique binds again).1
      rw [boundIndices_append_of_not_binds elsewhere]
      exact tracks.greatest n' k' there

/-- **What is known stays right** from step to step. -/
theorem Tracks.turn (tracks : Tracks config past known)
    (turn : Turn config now step known es known') : Tracks config (past ++ [step]) known' := by
  cases turn with
  | prepared prepared => exact tracks.prepared prepared
  | unprepared asked refused =>
    refine tracks.quiet ?_ ?_
    · simp [Step.prepared?, asked, refused]
    · rintro n index ⟨-, done⟩
      rw [refused] at done
      cases done
  | bound binds opened => exact tracks.bound binds opened
  | unbound asked refused =>
    exact tracks.quiet (prepared?_of_asksToBind asked) fun n index binds => refused binds.done
  | unknown asked unopened => exact tracks.quiet_of_asksToRun asked
  | ran asked opened ends => exact tracks.quiet_of_asksToRun asked

/-- **What is reported of a step** is what the steps before it say. -/
theorem Turn.reports (tracks : Tracks config past known)
    (turn : Turn config now step known es known') : Reports config now past step es := by
  have same (n : Nat) : (known.map Tracked.sql)[n]? =
      ((texts past).map (Utf8.cut · config.maxSqlLength))[n]? := by rw [tracks.sql]
  simp only [List.getElem?_map] at same
  cases turn with
  | prepared prepared => exact .prepared prepared
  | unprepared asked refused =>
    exact .unprepared asked refused (Context.shows_of _ _ _) rfl (Utf8.isDotted_iff.mpr rfl)
  | bound binds opened => exact .bind binds.asked
  | unbound asked refused => exact .bind asked
  | @unknown n asked unopened =>
    refine .unknown asked ?_
    have text := same n
    rw [unopened, Option.map_none] at text
    exact Option.map_eq_none_iff.mp text.symm
  | @ran n k result asked opened ends =>
    have text := same n
    rw [opened, Option.map_some] at text
    obtain ⟨sql, prepared, cut⟩ := Option.map_eq_some_iff.mp text.symm
    have context : k.context = .of (Utf8.cut sql config.maxSqlLength) k.bound := by
      rw [cut]
      rfl
    obtain ⟨slow, ending, late⟩ := exists_ending_eq config k.context (step.span now) result
    rw [ending]
    refine .ran asked prepared ?_ (tracks.greatest n k opened) ends late
    rw [context]
    exact Context.shows_of _ _ _

end Steps

/-- Every step of a session takes a turn, from what is known after the steps before it. -/
theorem takesTurn_performAll (l : Listener π) (config : MonitorConfig) (m : Machine σ τ)
    (commands : List (Command × RowMap ω α)) (s : Session (σ × π) (τ × Tracked)) (w : ω)
    {earlier past rest : List (Step (σ × π) (τ × Tracked) ω α)}
    {step : Step (σ × π) (τ × Tracked) ω α}
    (tracks : Tracks config earlier (s.statements.map Prod.snd))
    (split : performAll (connectionTo l config m.connection) commands (s, w) =
      past ++ step :: rest) :
    Tracks config (earlier ++ past) (step.before.1.statements.map Prod.snd) ∧
      TakesTurn l config m.now step := by
  induction commands generalizing s w earlier past with
  | nil => simp [performAll] at split
  | cons first commands ih =>
    have turn := takesTurn_performWith l config m first.2 first.1 s w
    cases past with
    | nil =>
      obtain ⟨rfl, -⟩ := List.cons.inj split
      rw [List.append_nil]
      exact ⟨tracks, turn⟩
    | cons next past =>
      obtain ⟨rfl, later⟩ := List.cons.inj split
      obtain ⟨es, turn, -, -⟩ := turn
      rw [List.append_cons]
      exact ih _ _ (tracks.turn turn) later

/-- **What monitors are told.**  In a session that starts with no statements, on any machine, every
step leaves the events that the steps before it call for, in one block, when monitoring is on, and
none when it is off; and the monitor hears these events and nothing else. -/
theorem reports_performAll (l : Listener π) (config : MonitorConfig) (m : Machine σ τ)
    (commands : List (Command × RowMap ω α)) (x : σ) (p : π) (w : ω)
    {past rest : List (Step (σ × π) (τ × Tracked) ω α)} {step : Step (σ × π) (τ × Tracked) ω α}
    (split : performAll (connectionTo l config m.connection) commands (⟨(x, p), []⟩, w) =
      past ++ step :: rest) :
    let told := step.outcome.trace.events
    (config.enabled = true → Reports config (fun s => m.now s.1) past step told) ∧
      (config.enabled = false → told = []) ∧
      step.outcome.state.1.state.2 = hear l step.before.1.state.2 told := by
  obtain ⟨tracks, es, turn, events, monitor⟩ :=
    takesTurn_performAll l config m commands _ w (Tracks.nil config) split
  intro told
  refine ⟨fun on => ?_, fun off => ?_, ?_⟩
  · have all : told = es := events.trans (if_pos on)
    rw [all]
    exact turn.reports tracks
  · refine events.trans (if_neg ?_)
    rw [off]
    exact Bool.false_ne_true
  · rw [monitor, ← events]

/-- A query that is slow by one nanosecond, of a statement whose text is cut inside a character and
to which the greater of two indices could not be bound; and a statement that cannot be prepared, for
a reason that takes more than 512 bytes and is cut inside a character. -/
theorem reports_performAll_slow_unprepared :
    let config : MonitorConfig :=
      { slowThreshold? := some ⟨3⟩, enabled := true, maxSqlLength := 9 }
    let counting : Listener Nat := fun heard _ => (heard + 1, [])
    let skip : RowMap Unit Unit := .ofFun fun _ => .ok ()
    (let m := Script.machine { bindError? := some (5, "refused"), rows := [[], []], delay := 3 }
      let context : Context := { sql := "SELECT '", paramCount := 2, kind := .select }
      ∃ past step, performAll (connectionTo counting config m.connection)
          [(.prepare "SELECT 'é'", skip), (.bind 0 2 (.int 7), skip), (.bindNull 0 5 .date, skip),
            (.query 0, skip)] (⟨(0, 0), []⟩, ()) = past ++ [step] ∧
        step.outcome.trace.events =
          [.started context, .completed context ⟨4⟩ (.rows 2), .slow context ⟨4⟩] ∧
        Reports config (fun s => m.now s.1) past step step.outcome.trace.events ∧
        step.outcome.state.1.state.2 = 3) ∧
    let m := Script.machine
      { prepareError? := some ("x" ++ String.ofList (List.replicate 300 'é')) }
    let context : Context := { sql := "DELETE", paramCount := 0, kind := .delete }
    ∃ step, performAll (connectionTo counting config m.connection) [(.prepare "DELETE", skip)]
        (⟨(0, 0), []⟩, ()) = [step] ∧
      step.outcome.trace.events = [.started context, .completed context ⟨1⟩
        (.error ("Connection error: x" ++ String.ofList (List.replicate 246 'é') ++ "..."))] ∧
      Reports config (fun s => m.now s.1) [] step step.outcome.trace.events ∧
      step.outcome.state.1.state.2 = 2 := by
  intro config counting skip
  constructor
  · intro m context
    have split : performAll (connectionTo counting config m.connection)
        [(.prepare "SELECT 'é'", skip), (.bind 0 2 (.int 7), skip), (.bindNull 0 5 .date, skip),
          (.query 0, skip)] (⟨(0, 0), []⟩, ()) = [_, _, _] ++ [_] := rfl
    obtain ⟨reports, -, -⟩ := reports_performAll _ config m _ 0 0 () split
    have seen : Context.of (Utf8.cut "SELECT 'é'" 9) 2 = context := by decide
    refine ⟨_, _, split, ?_, reports rfl, rfl⟩
    rw [← seen]
    rfl
  · intro m context
    have split : performAll (connectionTo counting config m.connection) [(.prepare "DELETE", skip)]
        (⟨(0, 0), []⟩, ()) = [] ++ [_] := rfl
    obtain ⟨reports, -, -⟩ := reports_performAll _ config m _ 0 0 () split
    have seen : Context.of (Utf8.cut "DELETE" 9) 0 = context := by decide
    -- The error is told by its characters, because bytes of long texts are slow to compare.
    let reason : List Char := "Connection error: x".toList ++ List.replicate 300 'é'
    have text : "Connection error: " ++ ("x" ++ String.ofList (List.replicate 300 'é')) =
        String.ofList reason := by
      rw [← String.append_assoc, String.ofList_append, String.ofList_toList]
      rfl
    have long : 512 < (String.ofList reason).utf8ByteSize := by
      rw [← Utf8.length_eq_utf8ByteSize]
      decide +kernel
    have kept : Utf8.take 512 reason = "Connection error: x".toList ++ List.replicate 246 'é' := by
      decide +kernel
    have told : Utf8.cutWithDots (String.ofList reason) 512 =
        "Connection error: x" ++ String.ofList (List.replicate 246 'é') ++ "..." := by
      rw [Utf8.cutWithDots_of_lt long, Utf8.cut, String.toList_ofList, kept, String.ofList_append,
        String.ofList_toList]
    refine ⟨_, split, ?_, reports rfl, rfl⟩
    rw [← seen, ← told, ← text]
    rfl

end Instrumented

end BoundSql
