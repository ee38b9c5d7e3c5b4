import BoundSql.Statement.Builder

/-!
# Chains of clauses

A statement grows by a chain of clauses, each added to what stands already.  This module says once
what one addition does (`Statement.add_eq_ok`) and what a whole chain amounts to
(`Statement.sofar_addAll`): the texts of its clauses one after the other, and their parameters one
after the other.

Stages fall into two classes.  Before a stage is settled, the clause that writes values may still
come and WHERE may not; once it is settled, nothing is written any more.
-/

namespace BoundSql

namespace Statement

/-- What one addition does: the stage offers the clause, the clause is not refused, and its text and
its parameters are appended. -/
theorem add_eq_ok {s : Option Statement} {c : Clause} {t : Statement} (h : add s c = .ok t) :
    ∃ stage, reach? s c.verb = some stage ∧ c.fault? = none ∧
      t = ⟨stage, (sofar s).1 ++ c.text, (sofar s).2 ++ c.params⟩ := by
  rw [add] at h
  split at h
  · cases h
  · next stage reached =>
    split at h
    · cases h
    · next accepted =>
      cases h
      exact ⟨stage, reached, accepted, rfl⟩

/-- A chain is its first clause and then the rest. -/
theorem addAll_cons_eq_ok {s r : Option Statement} {c : Clause} {cs : List Clause}
    (h : addAll s (c :: cs) = .ok r) : ∃ t, add s c = .ok t ∧ addAll (some t) cs = .ok r := by
  rw [addAll] at h
  split at h
  · cases h
  · next t added => exact ⟨t, added, h⟩

/-- **What a chain amounts to**: the texts and the parameters of its clauses, appended in turn to
what stood before. -/
theorem sofar_addAll {s r : Option Statement} {cs : List Clause} (h : addAll s cs = .ok r) :
    sofar r = ((sofar s).1 ++ String.join (cs.map Clause.text),
      (sofar s).2 ++ cs.flatMap Clause.params) := by
  induction cs generalizing s with
  | nil =>
    cases h
    rw [List.map_nil, String.join_nil, String.append_empty, List.flatMap_nil, List.append_nil]
  | cons c cs ih =>
    obtain ⟨t, added, rest⟩ := addAll_cons_eq_ok h
    obtain ⟨stage, -, -, rfl⟩ := add_eq_ok added
    rw [ih rest, List.map_cons, String.join_cons, List.flatMap_cons, sofar, String.append_assoc,
      List.append_assoc]

/-- The text and the parameters of a statement that a chain builds from nothing. -/
theorem build_eq_ok {cs : List Clause} {s : Statement} (h : build cs = .ok (some s)) :
    s.sql = String.join (cs.map Clause.text) ∧ s.params = cs.flatMap Clause.params := by
  have total : (s.sql, s.params) = ("" ++ String.join (cs.map Clause.text), [] ++ _) :=
    sofar_addAll h
  rw [String.empty_append, List.nil_append, Prod.mk.injEq] at total
  exact total

end Statement

/-! ## Values are written before conditions are added -/

/-- Whether no clause that writes values can follow. -/
def Stage.settled : Stage → Bool
  | .insertQuery | .insertInto | .updateQuery => false
  | _ => true

namespace Stage

/-- A settled stage offers no clause that writes, and stays settled. -/
theorem settled_next {stage next : Stage} {v : Clause.Verb} (h : stage.settled = true)
    (hn : stage.next? v = some next) : next.settled = true ∧ v ≠ .values ∧ v ≠ .assign := by
  cases stage <;> cases v <;> cases h <;> cases hn <;> decide

/-- A stage that is not settled does not offer WHERE. -/
theorem not_settled_next {stage next : Stage} {v : Clause.Verb} (h : stage.settled = false)
    (hn : stage.next? v = some next) : v ≠ .filtered := by
  cases stage <;> cases v <;> cases h <;> cases hn <;> decide

end Stage

end BoundSql
