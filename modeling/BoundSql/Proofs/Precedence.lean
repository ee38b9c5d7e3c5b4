import Mathlib.Data.List.Nodup
import BoundSql.Proofs.Grouping

/-!
# Which call orders are safe

`Condition.RespectsPrecedence` looks at each AND and at the call right below it on the left.  A user
who chains calls sees something else: a chain of ANDs and ORs, each call taking all that was built
before it as its left operand.  In such a chain an OR does harm to every AND that is called after
it, however many calls stand between them.

This module states the boundary in the user's terms and proves that it is exact.

* `Condition.leftSpine` — the chain of calls below a tree: the tree, its left operand, the left
  operand of that, up to the first leaf or NOT.
* `Condition.OrReachesAnd` — somewhere in the tree is an AND with an OR on the chain of its left
  operand.
* `Condition.occurrences` — the tree with its leaves numbered, so that two occurrences of one
  comparison are two propositional variables.

SQL gives a tree the value of its calls under every assignment to the occurrences of its leaves
exactly when no OR reaches an AND (`condition_agrees_iff_not_orReachesAnd`).
-/

namespace BoundSql

namespace Condition

variable {α β : Type}

/-! ## Calls on the left of an AND -/

/-- The trees that calls of AND and OR extended to the left, down to the first leaf or NOT. -/
def leftSpine : Condition α → List (Condition α)
  | .leaf _ => []
  | .and p q => .and p q :: p.leftSpine
  | .or p q => .or p q :: p.leftSpine
  | .not _ => []

/-- A tree and all trees below it. -/
def subtrees : Condition α → List (Condition α)
  | .leaf a => [.leaf a]
  | .and p q => .and p q :: (p.subtrees ++ q.subtrees)
  | .or p q => .or p q :: (p.subtrees ++ q.subtrees)
  | .not p => .not p :: p.subtrees

/-- Somewhere in the tree, an OR was called before an AND in one chain. -/
def OrReachesAnd (p : Condition α) : Prop :=
  ∃ l r, .and l r ∈ p.subtrees ∧ ∃ x ∈ l.leftSpine, x.isOr = true

theorem mem_leftSpine_of_isOr {p : Condition α} (h : p.isOr = true) : p ∈ p.leftSpine := by
  cases p with
  | or p q => exact List.mem_cons_self
  | leaf a | and p q | not p => exact Bool.noConfusion h

/-- Below a tree that respects precedence, every tree does. -/
theorem RespectsPrecedence.of_mem_subtrees {p x : Condition α} (h : p.RespectsPrecedence)
    (hx : x ∈ p.subtrees) : x.RespectsPrecedence := by
  induction p with
  | leaf a =>
    rw [List.mem_singleton.mp hx]
    exact h
  | and p q hp hq =>
    have ⟨_, left, right⟩ := h
    rcases List.mem_cons.mp hx with rfl | hx
    · exact h
    · exact (List.mem_append.mp hx).elim (hp left) (hq right)
  | or p q hp hq =>
    have ⟨left, right⟩ := h
    rcases List.mem_cons.mp hx with rfl | hx
    · exact h
    · exact (List.mem_append.mp hx).elim (hp left) (hq right)
  | not p hp =>
    rcases List.mem_cons.mp hx with rfl | hx
    · exact h
    · exact hp h hx

/-- When no AND has an OR right below it on the left, a chain that ends in an AND has no OR at
all. -/
theorem RespectsPrecedence.isOr_of_mem_leftSpine {p x : Condition α} (h : p.RespectsPrecedence)
    (last : p.isOr = false) (hx : x ∈ p.leftSpine) : x.isOr = false := by
  induction p with
  | leaf a | not p => exact absurd hx List.not_mem_nil
  | and p q hp hq =>
    obtain ⟨alone, left, -⟩ := h
    rcases List.mem_cons.mp hx with rfl | hx
    · rfl
    · exact hp left alone hx
  | or p q hp hq => exact Bool.noConfusion last

/-- A part of a tree has an OR before an AND only where the tree has. -/
theorem OrReachesAnd.mono {p q : Condition α} (h : p.OrReachesAnd)
    (part : p.subtrees ⊆ q.subtrees) : q.OrReachesAnd := by
  obtain ⟨l, r, here, before⟩ := h
  exact ⟨l, r, part here, before⟩

/-- **One step looked at for each AND is as good as the whole chain.** -/
theorem respectsPrecedence_iff {p : Condition α} : p.RespectsPrecedence ↔ ¬ p.OrReachesAnd := by
  constructor
  · rintro h ⟨l, r, here, x, before, isOr⟩
    obtain ⟨last, left, -⟩ := h.of_mem_subtrees here
    exact Bool.noConfusion (isOr.symm.trans (left.isOr_of_mem_leftSpine last before))
  · intro h
    induction p with
    | leaf a => trivial
    | and p q hp hq =>
      refine ⟨?_, hp fun left => h (left.mono fun x hx => ?_),
        hq fun right => h (right.mono fun x hx => ?_)⟩
      · rw [Bool.eq_false_iff]
        intro isOr
        exact h ⟨p, q, List.mem_cons_self, p, mem_leftSpine_of_isOr isOr, isOr⟩
      · exact List.mem_cons_of_mem _ (List.mem_append_left _ hx)
      · exact List.mem_cons_of_mem _ (List.mem_append_right _ hx)
    | or p q hp hq =>
      refine ⟨hp fun left => h (left.mono fun x hx => ?_),
        hq fun right => h (right.mono fun x hx => ?_)⟩
      · exact List.mem_cons_of_mem _ (List.mem_append_left _ hx)
      · exact List.mem_cons_of_mem _ (List.mem_append_right _ hx)
    | not p hp => exact hp fun below => h (below.mono fun x hx => List.mem_cons_of_mem _ hx)

/-- Whether an OR reaches an AND can be decided. -/
instance (p : Condition α) : Decidable p.OrReachesAnd :=
  decidable_of_iff (¬ p.RespectsPrecedence) (not_congr respectsPrecedence_iff |>.trans not_not)

/-! ## Occurrences of leaves -/

/-- The tree with its leaves numbered from `n`, from left to right. -/
def numberFrom (n : Nat) : Condition α → Condition (α × Nat)
  | .leaf a => .leaf (a, n)
  | .and p q => .and (p.numberFrom n) (q.numberFrom (n + p.leaves.length))
  | .or p q => .or (p.numberFrom n) (q.numberFrom (n + p.leaves.length))
  | .not p => .not (p.numberFrom n)

/-- The tree over the occurrences of its leaves. -/
def occurrences (p : Condition α) : Condition (α × Nat) :=
  p.numberFrom 0

theorem leaves_numberFrom (n : Nat) (p : Condition α) :
    (p.numberFrom n).leaves = p.leaves.zipIdx n := by
  induction p generalizing n with
  | leaf a => rfl
  | and p q hp hq | or p q hp hq =>
    simp only [numberFrom, leaves, List.zipIdx_append, hp, hq]
  | not p hp => exact hp n

theorem map_fst_numberFrom (n : Nat) (p : Condition α) : (p.numberFrom n).map Prod.fst = p := by
  induction p generalizing n with
  | leaf a => rfl
  | and p q hp hq | or p q hp hq => simp only [numberFrom, map, hp, hq]
  | not p hp => simp only [numberFrom, map, hp]

/-- No two occurrences are the same. -/
theorem nodup_leaves_occurrences (p : Condition α) : p.occurrences.leaves.Nodup := by
  apply List.Nodup.of_map Prod.snd
  rw [occurrences, leaves_numberFrom, List.zipIdx_map_snd]
  exact List.nodup_range'

/-- An occurrence is one of a leaf of the tree. -/
theorem fst_mem_leaves {p : Condition α} {o : α × Nat} (h : o ∈ p.occurrences.leaves) :
    o.1 ∈ p.leaves := by
  rw [occurrences, leaves_numberFrom] at h
  exact List.fst_mem_of_mem_zipIdx h

theorem isOr_map (f : α → β) (p : Condition α) : (p.map f).isOr = p.isOr := by
  cases p <;> rfl

/-- Whether a tree respects precedence does not depend on its leaves. -/
theorem respectsPrecedence_map {f : α → β} {p : Condition α} :
    (p.map f).RespectsPrecedence ↔ p.RespectsPrecedence := by
  induction p with
  | leaf a => exact Iff.rfl
  | and p q hp hq => simp only [map, RespectsPrecedence, isOr_map, hp, hq]
  | or p q hp hq => simp only [map, RespectsPrecedence, hp, hq]
  | not p hp => exact hp

theorem respectsPrecedence_occurrences {p : Condition α} :
    p.occurrences.RespectsPrecedence ↔ ¬ p.OrReachesAnd := by
  rw [← respectsPrecedence_iff, ← respectsPrecedence_map (f := Prod.fst), occurrences,
    map_fst_numberFrom]

/-! ## The boundary -/

/-- SQL gives a tree of different leaves the value of its calls under every assignment exactly when
the tree respects precedence. -/
theorem forall_holds_sql_iff {p : Condition α} (distinct : p.leaves.Nodup) :
    (∀ v : α → Bool, p.sql.holds v = p.holds v) ↔ p.RespectsPrecedence := by
  constructor
  · intro agrees
    by_contra departs
    obtain ⟨v, differs⟩ := exists_holds_sql_ne distinct departs
    exact differs (agrees v)
  · intro respects v
    rw [sql_eq_self respects]

/-- The same with unknown values: they make no tree safe and none unsafe. -/
theorem forall_eval_sql_iff {p : Condition α} (distinct : p.leaves.Nodup) :
    (∀ v : α → Truth, p.sql.eval v = p.eval v) ↔ p.RespectsPrecedence := by
  constructor
  · intro agrees
    apply (forall_holds_sql_iff distinct).mp
    intro v
    apply Truth.ofBool_injective
    rw [← eval_ofBool, ← eval_ofBool]
    exact agrees _
  · intro respects v
    rw [sql_eq_self respects]

/-- **The calls that SQL reads as they were made.**

The filter is built by any calls over comparisons.  Its text spells the tokens of the calls over the
occurrences of the comparisons, and SQL has one reading of these tokens.  That reading has the value
of the calls for every assignment to the occurrences, known or unknown, exactly when nowhere in the
tree an OR was called before an AND in the chain of the left operand of that AND. -/
theorem condition_agrees_iff_not_orReachesAnd (p : Condition Filter)
    (comparisons : ∀ f ∈ p.leaves, ∃ c k, Filter.compare c k = .ok f) :
    p.filter.condition = Token.spell (fun o => o.1.condition) p.occurrences.tokens ∧
      ∃ q : Condition (Filter × Nat),
        (∀ r, Reads .condition p.occurrences.tokens r ↔ r = q) ∧
        ((∀ v : Filter × Nat → Bool, q.holds v = p.occurrences.holds v) ↔ ¬ p.OrReachesAnd) ∧
        ((∀ v : Filter × Nat → Truth, q.eval v = p.occurrences.eval v) ↔ ¬ p.OrReachesAnd) := by
  have simple : ∀ o ∈ p.occurrences.leaves, o.1.composite = false := by
    intro o ho
    obtain ⟨c, k, made⟩ := comparisons o.1 (fst_mem_leaves ho)
    exact Filter.composite_of_compare made
  have spelled := condition_filter_map Prod.fst p.occurrences simple
  rw [occurrences, map_fst_numberFrom] at spelled
  have distinct := nodup_leaves_occurrences p
  rw [← respectsPrecedence_occurrences]
  exact ⟨spelled, p.occurrences.sql, fun r => reads_tokens_iff, forall_holds_sql_iff distinct,
    forall_eval_sql_iff distinct⟩

/-- The comparison `A = 1`. -/
def isOne : Filter :=
  ⟨"A = ?", [.int 1], false⟩

/-- `A = 1`, called with itself by OR, by AND and by AND again: the OR is two calls away from the
last AND. -/
def orAndAnd : Condition Filter :=
  .and (.and (.or (.leaf isOne) (.leaf isOne)) (.leaf isOne)) (.leaf isOne)

/-- The four occurrences are four variables, and some assignment to them tells the reading of SQL
from the calls. -/
theorem orAndAnd_departs :
    (∀ f ∈ orAndAnd.leaves, ∃ c k, Filter.compare c k = .ok f) ∧ orAndAnd.OrReachesAnd ∧
      ∃ q, Reads .condition orAndAnd.occurrences.tokens q ∧
        ∃ v : Filter × Nat → Bool, q.holds v ≠ orAndAnd.occurrences.holds v := by
  have comparisons : ∀ f ∈ orAndAnd.leaves, ∃ c k, Filter.compare c k = .ok f := by
    intro f hf
    have same : f = isOne := by simpa [orAndAnd, leaves] using hf
    exact ⟨{ name := "A" }, .relation .equal (.int 1), by rw [same]; rfl⟩
  have reaches : orAndAnd.OrReachesAnd := by decide
  obtain ⟨-, q, reads, known, -⟩ := condition_agrees_iff_not_orReachesAnd orAndAnd comparisons
  refine ⟨comparisons, reaches, q, (reads q).mpr rfl, ?_⟩
  by_contra none
  exact known.mp (fun v => not_not.mp fun differs => none ⟨v, differs⟩) reaches

end Condition

end BoundSql
