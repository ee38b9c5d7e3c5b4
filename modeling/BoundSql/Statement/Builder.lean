import BoundSql.Statement.Stage

/-! # Building statements

A statement under construction holds its stage, its text so far and its parameters so far.  Adding a
clause appends the text and the parameters of the clause, so neither is ever changed.  A clause that
the stage does not offer is refused before its items are looked at.
-/

namespace BoundSql

/-- Why a clause cannot be added. -/
inductive BuildFault where
  | illegal (verb : Clause.Verb)
  | argument (fault : ArgumentFault)
  deriving DecidableEq, Repr

/-- A statement under construction. -/
structure Statement where
  stage : Stage
  sql : String
  params : List Param

namespace Statement

/-- What the statement does. -/
def kind (s : Statement) : Kind :=
  s.stage.kind

/-- The stage that a clause of this verb reaches, from a statement or from nothing. -/
def reach? : Option Statement → Clause.Verb → Option Stage
  | none, v => Stage.first? v
  | some s, v => s.stage.next? v

/-- The text and the parameters so far. -/
def sofar : Option Statement → String × List Param
  | none => ("", [])
  | some s => (s.sql, s.params)

/-- A statement with one more clause, or the first clause of one. -/
def add (s : Option Statement) (c : Clause) : Except BuildFault Statement :=
  match reach? s c.verb with
  | none => .error (.illegal c.verb)
  | some stage =>
    match c.fault? with
    | some fault => .error (.argument fault)
    | none => .ok ⟨stage, (sofar s).1 ++ c.text, (sofar s).2 ++ c.params⟩

/-- Add clauses in turn, up to the first that is refused. -/
def addAll : Option Statement → List Clause → Except BuildFault (Option Statement)
  | s, [] => .ok s
  | s, c :: cs =>
    match add s c with
    | .error e => .error e
    | .ok s => addAll (some s) cs

/-- The statement of a list of clauses; of no clauses there is none. -/
def build (cs : List Clause) : Except BuildFault (Option Statement) :=
  addAll none cs

end Statement

end BoundSql
