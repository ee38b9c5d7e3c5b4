import BoundSql.Connection.Basic

/-! # Sessions

A session talks to a connection by commands and keeps the statements that it has prepared, numbered
in the order in which they were prepared.  Commands may name the statements in any order.  Every
command comes with what is made of the rows, should it be a query.  A failed command leaves the
session open; `Session.performAll` goes on with the next one.
-/

namespace BoundSql

/-- A command of a session. -/
inductive Command where
  | prepare (sql : String)
  | bind (statement index : Nat) (v : Value)
  | bindNull (statement index : Nat) (t : SqlType)
  | update (statement : Nat)
  | query (statement : Nat)

/-- What a command answers; `unknown` when there is no statement of that number. -/
inductive Answer (α : Type) where
  | prepared
  | bound
  | affected (count : Nat)
  | rows (found : List α)
  | unknown
  deriving DecidableEq, Repr

/-- The state of a session: the connection and the open statements. -/
structure Session (σ τ : Type) where
  state : σ
  statements : List τ

namespace Session

variable {σ τ ω α : Type}

/-- An action on one of the statements. -/
def withStatement {β : Type} (n : Nat) (answer : β → Answer α) (a : Action ((σ × τ) × ω) β) :
    Action (Session σ τ × ω) (Answer α) := fun (s, w) =>
  match s.statements[n]? with
  | none => ⟨.ok .unknown, (s, w), []⟩
  | some t =>
    let out := a ((s.state, t), w)
    ⟨out.result.map answer, (⟨out.state.1.1, s.statements.set n out.state.1.2⟩, out.state.2),
      out.trace⟩

theorem withStatement_none {β : Type} {n : Nat} {answer : β → Answer α}
    {a : Action ((σ × τ) × ω) β} {s : Session σ τ} {w : ω} (h : s.statements[n]? = none) :
    withStatement n answer a (s, w) = ⟨.ok .unknown, (s, w), []⟩ := by
  simp only [withStatement, h]

theorem withStatement_some {β : Type} {n : Nat} {answer : β → Answer α}
    {a : Action ((σ × τ) × ω) β} {s : Session σ τ} {w : ω} {t : τ}
    (h : s.statements[n]? = some t) :
    withStatement n answer a (s, w) =
      let out := a ((s.state, t), w)
      ⟨out.result.map answer, (⟨out.state.1.1, s.statements.set n out.state.1.2⟩, out.state.2),
        out.trace⟩ := by
  simp only [withStatement, h]

/-- Prepare one more statement. -/
def prepare (c : Connection σ τ) (sql : String) : Action (Session σ τ) (Answer α) := fun s =>
  let out := c.prepare sql s.state
  match out.result with
  | .ok t => ⟨.ok .prepared, ⟨out.state, s.statements ++ [t]⟩, out.trace⟩
  | .error e => ⟨.error e, ⟨out.state, s.statements⟩, out.trace⟩

/-- Carry out a command; the rows of a query are mapped. -/
def performWith (c : Connection σ τ) (map : RowMap ω α) :
    Command → Action (Session σ τ × ω) (Answer α)
  | .prepare sql => (prepare c sql).first
  | .bind n index v => withStatement n (fun () => .bound) (c.bind index v).first
  | .bindNull n index t => withStatement n (fun () => .bound) (c.bindNull index t).first
  | .update n => withStatement n .affected c.update.first
  | .query n => withStatement n .rows (c.collect map)

/-- Carry out a command; the rows of a query are mapped by a function. -/
def perform (c : Connection σ τ) (map : Row → Except SqlError α) (command : Command) :
    Action (Session σ τ) (Answer α) :=
  (performWith c (.ofFun map) command).within ()

/-- A command that was carried out: what was asked, in which state, and how it ended. -/
structure Step (σ τ ω α : Type) where
  command : Command
  before : Session σ τ × ω
  outcome : Outcome (Session σ τ × ω) (Answer α)

/-- Carry out commands in turn, failed ones too. -/
def performAll (c : Connection σ τ) :
    List (Command × RowMap ω α) → Session σ τ × ω → List (Step σ τ ω α)
  | [], _ => []
  | (command, map) :: rest, s =>
    let out := performWith c map command s
    ⟨command, s, out⟩ :: performAll c rest out.state

end Session

end BoundSql
