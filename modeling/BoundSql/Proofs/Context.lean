import BoundSql.Proofs.Coverage
import BoundSql.Proofs.Detection

/-!
# What monitors learn about built statements

The kind of a statement is known in two ways: a statement that was built has the kind of its stage,
and a monitor reads the kind off the text that it sees, which may have been cut.  A statement begins
with the keyword of its kind on a line of its own, and further clauses change neither
(`Statement.Headed`), so nothing is skipped in front and the two ways agree for every limit that
leaves room for the keyword (`Kind.within_of_headed`).

The number of parameters is known in two ways as well: a statement has a list of them, and the
monitor sees the greatest index that was bound.  Indices are bound in order from 1 on, so the
greatest is the last one (`Instrumented.state_bindFrom`).
-/

namespace BoundSql

open Monitor

variable {σ τ ω π α : Type}

/-! ## The first line -/

namespace Stage

/-- What a statement does does not change while it grows. -/
theorem kind_next {stage next : Stage} {v : Clause.Verb} (h : stage.next? v = some next) :
    next.kind = stage.kind := by
  cases stage <;> cases v <;> cases h <;> rfl

theorem kind_ne_other (stage : Stage) : stage.kind ≠ .other := by
  cases stage <;> decide

end Stage

namespace Statement

/-- The text of a statement has the keyword of its kind alone on the first line. -/
def Headed (s : Statement) : Prop :=
  ∃ rest, s.sql = s.kind.text ++ "\n" ++ rest

/-- A first clause begins with the keyword. -/
theorem headed_first {c : Clause} {s : Statement} (added : add none c = .ok s) : s.Headed := by
  obtain ⟨stage, reached, -, rfl⟩ := add_eq_ok added
  have block_eq (keyword : String) (items : List String) :
      "" ++ Clause.block keyword items = keyword ++ "\n" ++ (Clause.itemLines items ++ "\n") := by
    rw [Clause.block, String.empty_append, String.append_assoc]
  cases c <;> cases reached
  case select columns => exact ⟨_, block_eq ..⟩
  case update t => exact ⟨_, block_eq ..⟩
  case insert => exact ⟨"", rfl⟩
  case delete => exact ⟨"", rfl⟩

theorem Headed.add {s t : Statement} {c : Clause} (headed : s.Headed)
    (added : Statement.add (some s) c = .ok t) : t.Headed := by
  obtain ⟨rest, begins⟩ := headed
  obtain ⟨stage, reached, -, rfl⟩ := add_eq_ok added
  have same : stage.kind = s.kind := Stage.kind_next reached
  refine ⟨rest ++ c.text, ?_⟩
  simp only [sofar, kind, same, begins, String.append_assoc]

theorem Headed.addAll {s t : Statement} {cs : List Clause} (headed : s.Headed)
    (added : Statement.addAll (some s) cs = .ok (some t)) : t.Headed := by
  induction cs generalizing s with
  | nil =>
    cases added
    exact headed
  | cons c cs ih =>
    obtain ⟨u, first, rest⟩ := addAll_cons_eq_ok added
    exact ih (headed.add first) rest

/-- **Every statement begins with the keyword of its kind.** -/
theorem headed_of_build {cs : List Clause} {s : Statement} (built : build cs = .ok (some s)) :
    s.Headed := by
  cases cs with
  | nil => cases built
  | cons c cs =>
    obtain ⟨t, first, rest⟩ := addAll_cons_eq_ok built
    exact (headed_first first).addAll rest

end Statement

namespace Kind

/-- The keywords are in capitals. -/
theorem map_toUpper_text (k : Kind) : k.text.toList.map Char.toUpper = k.text.toList := by
  cases k <;> decide

/-- Nothing is skipped in front of a keyword. -/
theorem body_text_append (k : Kind) (rest : List Char) :
    body (k.text.toList ++ rest) = k.text.toList ++ rest :=
  skipFrom_word k.map_toUpper_text rest

theorem ofBody_text_append {k : Kind} (named : k ≠ .other) {rest : List Char}
    (ends : Text.Avoids continuesWord rest) : ofBody (k.text.toList ++ rest) = k := by
  rw [ofBody_eq_iff named, startsWith_iff, List.take_left, List.drop_left]
  exact ⟨k.map_toUpper_text, ends⟩

variable {k : Kind} {sql rest : String}

theorem toList_headed (headed : sql = k.text ++ "\n" ++ rest) :
    sql.toList = k.text.toList ++ '\n' :: rest.toList := by
  rw [headed, String.toList_append, String.toList_append, List.append_assoc]
  rfl

theorem ofSql_of_headed (named : k ≠ .other) (headed : sql = k.text ++ "\n" ++ rest) :
    ofSql sql = k := by
  show ofBody (body sql.toList) = k
  have ends : Text.Avoids continuesWord ('\n' :: rest.toList) := by
    intro c first
    cases first
    decide
  rw [toList_headed headed, body_text_append, ofBody_text_append named ends]

/-- **A limit shows the kind** just when it leaves room for the keyword. -/
theorem within_of_headed (named : k ≠ .other) (headed : sql = k.text ++ "\n" ++ rest)
    (limit : Nat) : within limit sql = k ↔ 6 ≤ limit := by
  have whole : body sql.toList = sql.toList := by
    rw [toList_headed headed, body_text_append]
  have word : (body sql.toList).take 6 = k.text.toList ++ [] := by
    rw [whole, toList_headed headed, ← length_text named, List.take_left, List.append_nil]
  have six : wordEnd sql = 6 := by
    rw [wordEnd, leadSize, whole, Nat.sub_self]
  unfold within
  rw [six, word, ofBody_text_append named Text.avoids_nil, ofSql_of_headed named headed]
  split
  · next less => exact iff_of_false (Ne.symm named) (Nat.not_le.mpr less)
  · next enough => simp [Nat.not_lt.mp enough]

end Kind

/-! ## Bound indices -/

namespace Instrumented

/-- What is known after a parameter is bound. -/
theorem state_bindParam (l : Listener π) (config : MonitorConfig) {m : Machine σ τ} {index : Nat}
    {q : Param} {x y : σ × τ} (bound : m.bind index q x = (.ok (), y)) (p : π) (k : Tracked) :
    let out := Statement.bindParam (connectionTo l config m.connection) index q
      ((x.1, p), (x.2, k))
    out.result = .ok () ∧
      out.state = ((y.1, p), (y.2, { k with bound := max k.bound index })) := by
  obtain ⟨s, t⟩ := x
  cases q with
  | value v =>
    simp [Statement.bindParam, connectionTo, track, Machine.connection_bind bound]
  | null u =>
    simp [Statement.bindParam, Statement.log, Action.note, Action.run_bind, connectionTo, track,
      Machine.connection_bindNull bound]

/-- **What is known after parameters are bound** from the first free index on: the greatest index
grows by their number. -/
theorem state_bindFrom (l : Listener π) (config : MonitorConfig) {m : Machine σ τ} {index : Nat}
    {ps : List Param} {x z : σ × τ} (all : m.BindsAll index ps x z) (p : π) (k : Tracked)
    (next : index = k.bound + 1) :
    let out := Statement.bindFrom (connectionTo l config m.connection) index ps
      ((x.1, p), (x.2, k))
    out.result = .ok () ∧
      out.state = ((z.1, p), (z.2, { k with bound := k.bound + ps.length })) := by
  induction all generalizing k with
  | nil => exact ⟨rfl, rfl⟩
  | @cons index q ps x y z bound _ ih =>
    obtain ⟨result, state⟩ := state_bindParam l config bound p k
    have raised : max k.bound index = k.bound + 1 := by omega
    rw [raised] at state
    obtain ⟨results, states⟩ := ih { k with bound := k.bound + 1 } (by rw [next])
    rw [Statement.bindFrom, Action.run_bind, result, state]
    refine ⟨results, states.trans ?_⟩
    rw [Nat.add_assoc, Nat.add_comm 1, List.length_cons]

/-- The context of a run whose parameters are all bound. -/
def contextOf (config : MonitorConfig) (s : Statement) : Context :=
  Context.of (Utf8.cut s.sql config.maxSqlLength) s.params.length

/-- The kind in a context is the one that the text shows within the limit. -/
theorem kind_contextOf (config : MonitorConfig) (s : Statement) :
    (contextOf config s).kind = Kind.within config.maxSqlLength s.sql := by
  rw [contextOf, Context.of, Kind.ofSql_cut]

/-- **What is told of a statement that is prepared and bound**, when `run` itself is reported. -/
theorem events_prepared (l : Listener π) (config : MonitorConfig) {m : Machine σ τ} {s : Statement}
    {x y : σ} {t : τ} {z : σ × τ} (answer : m.prepare s.sql x = (.ok t, y))
    (all : m.BindsAll 1 s.params (y, t) z) {run : Action (((σ × π) × (τ × Tracked)) × ω) α}
    (observed : ∀ x p t k w, ∃ result,
      Observed l config m.now x p k (run (((x, p), (t, k)), w)) result) (p : π) (w : ω) :
    let c := contextOf config s
    ∃ d result, (s.prepared (connectionTo l config m.connection) run ((x, p), w)).trace.events =
      config.told (.started c :: ending config c d result) := by
  let cut := Utf8.cut s.sql config.maxSqlLength
  obtain ⟨quiet, -⟩ := quiet_bindFrom l config m 1 s.params ((y, p), (t, ⟨cut, 0⟩))
  obtain ⟨result, state⟩ := state_bindFrom l config all p ⟨cut, 0⟩ rfl
  rw [Statement.prepared_run s _ run (x, p) w (prepare_connectionTo_ok l config answer p)]
  revert quiet result state
  generalize Statement.bindFrom (connectionTo l config m.connection) 1 s.params
    ((y, p), (t, ⟨cut, 0⟩)) = bound
  obtain ⟨result, state, trace⟩ := bound
  rintro quiet rfl rfl
  obtain ⟨reported, -, events, -⟩ := observed z.1 p z.2 ⟨cut, 0 + s.params.length⟩ w
  rw [Nat.zero_add] at events
  simp only [Trace.events_append, quiet, Nat.zero_add, events]
  exact ⟨_, reported, rfl⟩

end Instrumented

/-! ## Runs -/

namespace Run

open Instrumented

/-- **What is told of a run whose parameters are all bound**, for the effect or for the rows. -/
theorem events_perform (l : Listener π) (config : MonitorConfig) {m : Machine σ τ} (r : Run)
    {x y : σ} {t : τ} {z : σ × τ} (answer : m.prepare r.statement.sql x = (.ok t, y))
    (all : m.BindsAll 1 r.statement.params (y, t) z) (p : π) :
    let c := contextOf config r.statement
    ∃ d result, (r.perform (connectionTo l config m.connection) (x, p)).trace.events =
      config.told (.started c :: ending config c d result) := by
  cases r with
  | effect s =>
    simp only [perform, Statement.execute, Action.within, events_logged]
    exact events_prepared l config answer all
      (fun x p t k w => ⟨_, observed_update l config m x p t k w⟩) p ()
  | rows s map w =>
    simp only [perform, Statement.fetchWith, events_logged]
    exact events_prepared l config answer all
      (fun x p t k w => ⟨_, observed_collect l config m map x p t k w⟩) p w

/-- **What monitors learn about a built statement.**  The kind that is read off its text is its
kind.  When it is run on an instrumented connection with monitoring on, for the effect or for the
rows, and it is prepared and all its parameters are bound, then whatever comes of the run it is told
as started, as completed, and as slow if it exceeded the threshold, each time with one context: the
longest beginning of its text within the limit, the number of its parameters, and its kind, if and
only if the limit is six bytes at least. -/
theorem tells_what_was_built {cs : List Clause} {s : Statement}
    (built : Statement.build cs = .ok (some s)) :
    Kind.ofSql s.sql = s.kind ∧
    ∀ {σ τ π : Type} (m : Machine σ τ) (l : Listener π) (config : MonitorConfig),
      config.enabled = true →
      ∀ (x y : σ) (t : τ) (z : σ × τ) (p : π),
        m.prepare s.sql x = (.ok t, y) → m.BindsAll 1 s.params (y, t) z →
        ∀ r : Run, r.statement = s →
          ∃ c d result slow, (r.perform (connectionTo l config m.connection) (x, p)).trace.events =
            .started c :: .completed c d result :: slow ∧
            (config.Exceeded d ∧ slow = [.slow c d] ∨ ¬ config.Exceeded d ∧ slow = []) ∧
            Utf8.IsCut config.maxSqlLength s.sql c.sql ∧ c.paramCount = s.params.length ∧
            (c.kind = s.kind ↔ 6 ≤ config.maxSqlLength) := by
  obtain ⟨rest, headed⟩ := Statement.headed_of_build built
  have named : s.kind ≠ .other := s.stage.kind_ne_other
  refine ⟨Kind.ofSql_of_headed named headed, ?_⟩
  rintro σ τ π m l config enabled x y t z p answer all r rfl
  obtain ⟨d, result, events⟩ := events_perform l config r answer all p
  obtain ⟨slow, ending, late⟩ := exists_ending_eq config (contextOf config r.statement) d result
  rw [MonitorConfig.told, if_pos enabled, ending] at events
  refine ⟨contextOf config r.statement, d, result, slow, events, late, Utf8.isCut_cut _ _, rfl, ?_⟩
  rw [kind_contextOf, Kind.within_of_headed named headed]

/-- An UPDATE with a null and a condition, which is slow, where the limit only leaves room for the
keyword. -/
theorem tells_what_was_built_update :
    let clauses : List Clause := [.update { name := "T" },
      .assign [.of { name := "A", type := .date } none], .filtered (.leaf "B = ?" [.int 1])]
    let config : MonitorConfig :=
      { slowThreshold? := some ⟨0⟩, enabled := true, maxSqlLength := 6 }
    ∃ s, Statement.build clauses = .ok (some s) ∧ Kind.ofSql s.sql = .update ∧
      ∃ c : Context,
        ((Run.effect s).perform (connectionTo tallying config (Script.machine {}).connection)
          (0, .zero)).trace.events =
            [.started c, .completed c ⟨1⟩ (.affected 0), .slow c ⟨1⟩] ∧
        Utf8.IsCut 6 s.sql c.sql ∧ c.sql = "UPDATE" ∧ c.paramCount = 2 ∧ c.kind = .update := by
  intro clauses config
  have built : Statement.build clauses = .ok (some ⟨.updateWhere, _, _⟩) := rfl
  obtain ⟨kind, told⟩ := tells_what_was_built built
  obtain ⟨c, d, result, slow, events, -, cut, count, shown⟩ :=
    told (Script.machine {}) tallying config rfl 0 1 () (1, ()) .zero rfl
      (.cons rfl (.cons rfl .nil)) (.effect _) rfl
  have first : Event.started (contextOf config _) = .started c := (List.cons.inj events).1
  cases first
  exact ⟨_, built, kind, _, rfl, cut, by decide, count, shown.mpr (Nat.le_refl 6)⟩

end Run

end BoundSql
