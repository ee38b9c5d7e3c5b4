import BoundSql.Proofs.Protocol

/-!
# What a run leaves in the log

A run writes an entry before anything else and an entry at the end, and in between one for every
null that it comes to.  A run comes to a parameter when all earlier ones are bound
(`Machine.ComesTo`), so a null that is then refused has its entry and a null behind it has none.

The order of entries and calls is kept in one relation, `Announces`: it reads a trace from the left,
and a call that binds a null stands nowhere but behind the entry that announces it.  Traces that
follow one another announce what both announce (`Announces.append`).  With that the induction on the
parameters needs one step lemma for a parameter that is refused and one for a parameter that is
bound, for the nulls that are met (`MeetsNulls.refused`, `MeetsNulls.bound`) as for the trace.
-/

namespace BoundSql

variable {σ τ ω α : Type}

/-- An entry about running statements has a level, fields and a message. -/
structure LogEntry.Says (entry : LogEntry) (level : Level) (fields : List (String × String))
    (message : String) : Prop where
  target : entry.target = "sqlstage.sql"
  level : entry.level = level
  fields : entry.fields = fields ++ [("message", message)]

/-! ## Nulls -/

namespace Machine

/-- Binding parameters from an index on comes to the parameter with a number: all those before it
are bound. -/
def ComesTo (m : Machine σ τ) (index : Nat) (ps : List Param) (x : σ × τ) (number : Nat) : Prop :=
  ∃ y, m.BindsAll index (ps.take number) x y

theorem bindsAll_cons_iff {m : Machine σ τ} {index : Nat} {p : Param} {ps : List Param}
    {x z : σ × τ} :
    m.BindsAll index (p :: ps) x z ↔
      ∃ y, m.bind index p x = (.ok (), y) ∧ m.BindsAll (index + 1) ps y z := by
  constructor
  · rintro (_ | ⟨bound, rest⟩)
    exact ⟨_, bound, rest⟩
  · rintro ⟨y, bound, rest⟩
    exact .cons bound rest

theorem comesTo_zero (m : Machine σ τ) (index : Nat) (ps : List Param) (x : σ × τ) :
    m.ComesTo index ps x 0 :=
  ⟨x, .nil⟩

/-- Past a parameter that is bound. -/
theorem comesTo_succ_of_bound {m : Machine σ τ} {index : Nat} {p : Param} {ps : List Param}
    {x y : σ × τ} {number : Nat} (bound : m.bind index p x = (.ok (), y)) :
    m.ComesTo index (p :: ps) x (number + 1) ↔ m.ComesTo (index + 1) ps y number := by
  simp only [ComesTo, List.take_succ_cons, bindsAll_cons_iff, bound, Prod.mk.injEq, true_and,
    exists_eq_left']

/-- Nothing is come to past a parameter that is refused. -/
theorem not_comesTo_succ_of_refused {m : Machine σ τ} {index : Nat} {p : Param} {ps : List Param}
    {x y : σ × τ} {number : Nat} {e : SqlError} (refused : m.bind index p x = (.error e, y)) :
    ¬ m.ComesTo index (p :: ps) x (number + 1) := by
  simp only [ComesTo, List.take_succ_cons, bindsAll_cons_iff, refused, Prod.mk.injEq, reduceCtorEq,
    false_and, exists_false, not_false_eq_true]

/-- The nulls that binding parameters from an index on comes to, each with its index and type, in
the order of the indices. -/
structure MeetsNulls (m : Machine σ τ) (index : Nat) (ps : List Param) (x : σ × τ)
    (nulls : List (Nat × SqlType)) : Prop where
  mem_iff : ∀ place t, (place, t) ∈ nulls ↔
    ∃ number, place = index + number ∧ ps[number]? = some (.null t) ∧ m.ComesTo index ps x number
  inOrder : nulls.Pairwise (·.1 < ·.1)

/-- The nulls that running a statement comes to, which are none when it cannot be prepared. -/
def MeetsNullsOf (m : Machine σ τ) (s : Statement) (x : σ) (nulls : List (Nat × SqlType)) : Prop :=
  match m.prepare s.sql x with
  | (.ok t, y) => m.MeetsNulls 1 s.params (y, t) nulls
  | (.error _, _) => nulls = []

end Machine

/-- The nulls of one parameter, which has an index. -/
def Param.nulls (index : Nat) : Param → List (Nat × SqlType)
  | .value _ => []
  | .null t => [(index, t)]

theorem Param.mem_nulls {index place : Nat} {p : Param} {t : SqlType} :
    (place, t) ∈ p.nulls index ↔ place = index ∧ p = .null t := by
  cases p with
  | value v => simp [nulls]
  | null u => simp [nulls, eq_comm]

namespace Machine.MeetsNulls

open Param

variable {m : Machine σ τ} {index : Nat} {p : Param} {ps : List Param} {x y : σ × τ}
  {nulls : List (Nat × SqlType)}

theorem nil : m.MeetsNulls index [] x [] where
  mem_iff place t := by simp
  inOrder := .nil

/-- The first parameter is refused. -/
theorem refused {e : SqlError} (refused : m.bind index p x = (.error e, y)) :
    m.MeetsNulls index (p :: ps) x (p.nulls index) where
  mem_iff place t := by
    rw [mem_nulls]
    constructor
    · rintro ⟨rfl, rfl⟩
      exact ⟨0, rfl, rfl, comesTo_zero ..⟩
    · rintro ⟨_ | number, rfl, null, comes⟩
      · exact ⟨rfl, Option.some.inj null⟩
      · exact absurd comes (not_comesTo_succ_of_refused refused)
  inOrder := by cases p <;> simp [Param.nulls]

/-- The first parameter is bound. -/
theorem bound (bound : m.bind index p x = (.ok (), y))
    (rest : m.MeetsNulls (index + 1) ps y nulls) :
    m.MeetsNulls index (p :: ps) x (p.nulls index ++ nulls) where
  mem_iff place t := by
    rw [List.mem_append, mem_nulls, rest.mem_iff]
    constructor
    · rintro (⟨rfl, rfl⟩ | ⟨number, rfl, null, comes⟩)
      · exact ⟨0, rfl, rfl, comesTo_zero ..⟩
      · exact ⟨number + 1, by omega, null, (comesTo_succ_of_bound bound).mpr comes⟩
    · rintro ⟨_ | number, rfl, null, comes⟩
      · exact .inl ⟨rfl, Option.some.inj null⟩
      · exact .inr ⟨number, by omega, null, (comesTo_succ_of_bound bound).mp comes⟩
  inOrder := by
    refine List.pairwise_append.mpr ⟨?_, rest.inOrder, ?_⟩
    · cases p <;> simp [Param.nulls]
    · rintro ⟨place, t⟩ first ⟨later, u⟩ second
      obtain ⟨rfl, -⟩ := mem_nulls.mp first
      obtain ⟨number, rfl, -⟩ := (rest.mem_iff later u).mp second
      exact Nat.lt_of_lt_of_le (Nat.lt_succ_self _) (Nat.le_add_right _ _)

end Machine.MeetsNulls

/-! ## Traces -/

/-- A trace between the first and the last entry of a run: every null that it binds is announced
just before, and there are no other entries. -/
inductive Announces : List (Nat × SqlType) → Trace → Prop
  | nil : Announces [] []
  | called {nulls : List (Nat × SqlType)} {trace : Trace} {c : Call}
      (other : ∀ index t, c ≠ .bind index (.null t)) (rest : Announces nulls trace) :
      Announces nulls (.called c :: trace)
  | visited {nulls : List (Nat × SqlType)} {trace : Trace} {r : Row}
      (rest : Announces nulls trace) : Announces nulls (.visited r :: trace)
  | null {nulls : List (Nat × SqlType)} {trace : Trace} {index : Nat} {t : SqlType}
      {entry : LogEntry}
      (told : entry.Says .trace [("index", Decimal.natural index), ("sql_type", t.name)]
        "binding typed null")
      (rest : Announces nulls trace) :
      Announces ((index, t) :: nulls) (.logged entry :: .called (.bind index (.null t)) :: trace)

theorem Announces.append {first second : List (Nat × SqlType)} {trace later : Trace}
    (before : Announces first trace) (after : Announces second later) :
    Announces (first ++ second) (trace ++ later) := by
  induction before with
  | nil => exact after
  | called other _ ih => exact .called other ih
  | visited _ ih => exact .visited ih
  | null told _ ih => exact .null told ih

/-- Handing rows over announces nothing. -/
theorem Cursor.announces_visit {ρ : Type} (visitor : Visitor ω) (c : Cursor ρ) (w : ω) :
    Announces [] (c.visit visitor w).trace := by
  induction c generalizing w with
  | ended result s => exact .nil
  | row r next ih => exact .visited (ih (visitor r w).1 (visitor r w).2)

theorem Machine.announces_update (m : Machine σ τ) (z : σ × τ) (w : ω) :
    Announces [] (m.connection.update.first (z, w)).trace :=
  .called (fun _ _ other => nomatch other) .nil

theorem Machine.announces_collect (m : Machine σ τ) (map : RowMap ω α) (z : σ × τ) (w : ω) :
    Announces [] (m.connection.collect map (z, w)).trace :=
  .called (fun _ _ other => nomatch other) ((m.query z).announces_visit map.keeping (w, []))

namespace Statement

/-- A parameter is announced when it is a null. -/
theorem announces_bindParam (m : Machine σ τ) (index : Nat) (p : Param) (x : σ × τ) :
    Announces (p.nulls index) (bindParam m.connection index p x).trace := by
  cases p with
  | value v => exact .called (fun _ _ other => nomatch other) .nil
  | null t => exact .null ⟨rfl, rfl, rfl⟩ .nil

/-- **Binding parameters announces the nulls that it comes to.** -/
theorem announces_bindFrom (m : Machine σ τ) (index : Nat) (ps : List Param) (x : σ × τ) :
    ∃ nulls, m.MeetsNulls index ps x nulls ∧
      Announces nulls (bindFrom m.connection index ps x).trace := by
  induction ps generalizing index x with
  | nil => exact ⟨[], .nil, .nil⟩
  | cons p ps ih =>
    obtain ⟨answer, -, -⟩ := bindParam_run m index p x
    have announced := announces_bindParam m index p x
    rw [bindFrom, Action.run_bind]
    cases result : (bindParam m.connection index p x).result with
    | error e =>
      rw [result] at answer
      exact ⟨_, .refused answer.symm, announced⟩
    | ok done =>
      rw [result] at answer
      obtain ⟨nulls, met, later⟩ := ih (index + 1) (bindParam m.connection index p x).state
      exact ⟨_, met.bound answer.symm, announced.append later⟩

/-- So does a run on a prepared statement that goes on without binding. -/
theorem announces_prepared (m : Machine σ τ) (s : Statement) (run : Action ((σ × τ) × ω) α)
    (silent : ∀ z w, Announces [] (run (z, w)).trace) (x : σ) (w : ω) :
    ∃ nulls, m.MeetsNullsOf s x nulls ∧
      Announces nulls (s.prepared m.connection run (x, w)).trace := by
  have opening (rest : Trace) (nulls : List (Nat × SqlType)) (h : Announces nulls rest) :
      Announces nulls (.called (.prepare s.sql) :: rest) :=
    .called (fun _ _ other => nomatch other) h
  unfold Machine.MeetsNullsOf
  rcases answer : m.prepare s.sql x with ⟨e | t, y⟩
  · rw [prepared_refused s m.connection run x w (Machine.connection_prepare answer)]
    exact ⟨[], rfl, opening [] [] .nil⟩
  · obtain ⟨nulls, met, announced⟩ := announces_bindFrom m 1 s.params (y, t)
    rw [prepared_run s m.connection run x w (Machine.connection_prepare answer)]
    cases (bindFrom m.connection 1 s.params (y, t)).result with
    | error e => exact ⟨nulls, met, opening _ _ announced⟩
    | ok done =>
      have whole := announced.append (silent (bindFrom m.connection 1 s.params (y, t)).state w)
      rw [List.append_nil] at whole
      exact ⟨nulls, met, opening _ _ whole⟩

end Statement

/-! ## Runs -/

/-- How an entry reports the result of a run: how many rows there were or were affected, or the text
of the error and the statement. -/
def LogEntry.Closes (entry : LogEntry) (s : Statement) (word counted : String) :
    Except SqlError Nat → Prop
  | .ok count => entry.Says .debug [(counted, Decimal.natural count)] (word ++ " finished")
  | .error e => entry.Says .warn [("error", e.text), ("sql", s.sql)] (word ++ " failed")

/-- The trace of a run: an entry about the statement, the nulls that are met, each announced before
it is bound, and an entry about the result. -/
def Machine.Journal (m : Machine σ τ) (s : Statement) (x : σ) (word counted : String)
    (result : Except SqlError Nat) (trace : Trace) : Prop :=
  ∃ first last nulls between, trace = .logged first :: (between ++ [.logged last]) ∧
    first.Says .debug [("query_type", s.kind.text),
      ("param_count", Decimal.natural s.params.length), ("sql", s.sql)] ("executing " ++ word) ∧
    m.MeetsNullsOf s x nulls ∧ Announces nulls between ∧ last.Closes s word counted result

namespace Statement

/-- The last entry of a run agrees with its result. -/
theorem closes_closing (s : Statement) (mode : RunMode) (result : Except SqlError Nat) :
    (s.closing mode result).Closes s mode.word mode.countField result := by
  cases result with
  | ok count => exact ⟨rfl, rfl, rfl⟩
  | error e => exact ⟨rfl, rfl, rfl⟩

theorem journal_logged (m : Machine σ τ) (s : Statement) (mode : RunMode) (count : α → Nat)
    (run : Action ((σ × τ) × ω) α) (silent : ∀ z w, Announces [] (run (z, w)).trace) (x : σ)
    (w : ω) :
    let out := s.logged mode count (s.prepared m.connection run) (x, w)
    m.Journal s x mode.word mode.countField (out.result.map count) out.trace := by
  obtain ⟨nulls, met, announced⟩ := announces_prepared m s run silent x w
  rw [logged_eq]
  exact ⟨_, _, nulls, _, rfl, ⟨rfl, rfl, rfl⟩, met, announced, s.closes_closing mode _⟩

/-- The second of three nulls is refused. -/
example :
    let s : Statement :=
      ⟨.insertValues, "INSERT", [.null .date, .value (.int 1), .null .bigInt, .null .date]⟩
    (s.execute (Script.connection { bindError? := some (3, "refused") }) 0).trace.log =
      [.executing .statement .insert 4 "INSERT", .bindingNull 1 .date, .bindingNull 3 .bigInt,
        .failed .statement (.connection "refused") "INSERT"] := by
  decide

end Statement

end BoundSql
