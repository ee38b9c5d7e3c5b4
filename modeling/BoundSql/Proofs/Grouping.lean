import Mathlib.Data.List.Lattice
import Mathlib.Data.List.Nodup
import BoundSql.Proofs.Reader

/-!
# What SQL makes of a condition

A filter shows its tree of calls by parentheses around right operands and operands of NOT.  SQL
groups by precedence instead, so the two agree only on some trees.  This module finds the tree that
SQL reads, `Condition.sql`, and the trees that SQL reads as they were built.

SQL departs from the calls in one place only: where the left operand of an AND is an OR, AND takes
the last term of that OR away from it (`Condition.conjoin`).  A tree in which this happens nowhere
is read as it was built (`sql_eq_self`).  A tree in which it happens, and whose leaves are all
different, is given another value by some assignment (`exists_holds_sql_ne`): along the path from
the AND to the root, every other operand can be set so that the difference is passed on, because
operands on either side share no leaves.
-/

namespace BoundSql

/-! ## Truth values -/

/-- The truth values of SQL. -/
inductive Truth where
  | yes
  | no
  | unknown
  deriving DecidableEq, Repr

namespace Truth

/-- Yes when both are yes; one no is enough for no. -/
def and : Truth → Truth → Truth
  | .no, _ | _, .no => .no
  | .yes, b => b
  | .unknown, _ => .unknown

/-- No when both are no; one yes is enough for yes. -/
def or : Truth → Truth → Truth
  | .yes, _ | _, .yes => .yes
  | .no, b => b
  | .unknown, _ => .unknown

/-- The opposite; what is unknown stays unknown. -/
def not : Truth → Truth
  | .yes => .no
  | .no => .yes
  | .unknown => .unknown

/-- A truth value that is known. -/
def ofBool : Bool → Truth
  | true => .yes
  | false => .no

theorem ofBool_injective {a b : Bool} (h : ofBool a = ofBool b) : a = b := by
  cases a <;> cases b <;> first | rfl | cases h

theorem ofBool_ne_unknown (b : Bool) : ofBool b ≠ .unknown := by
  cases b <;> intro h <;> cases h

theorem ofBool_and (a b : Bool) : (ofBool a).and (ofBool b) = ofBool (a && b) := by
  cases a <;> cases b <;> rfl

theorem ofBool_or (a b : Bool) : (ofBool a).or (ofBool b) = ofBool (a || b) := by
  cases a <;> cases b <;> rfl

theorem ofBool_not (b : Bool) : (ofBool b).not = ofBool (!b) := by
  cases b <;> rfl

end Truth

namespace Condition

variable {α : Type}

/-- The truth value of a tree, with AND, OR and NOT of SQL. -/
def eval (v : α → Truth) : Condition α → Truth
  | .leaf a => v a
  | .and p q => (p.eval v).and (q.eval v)
  | .or p q => (p.eval v).or (q.eval v)
  | .not p => (p.eval v).not

/-- Whether a tree holds when every leaf is known. -/
def holds (v : α → Bool) : Condition α → Bool
  | .leaf a => v a
  | .and p q => p.holds v && q.holds v
  | .or p q => p.holds v || q.holds v
  | .not p => !p.holds v

theorem eval_ofBool (v : α → Bool) (p : Condition α) :
    p.eval (fun a => Truth.ofBool (v a)) = Truth.ofBool (p.holds v) := by
  induction p with
  | leaf a => rfl
  | and p q hp hq => rw [eval, hp, hq, Truth.ofBool_and, holds]
  | or p q hp hq => rw [eval, hp, hq, Truth.ofBool_or, holds]
  | not p hp => rw [eval, hp, Truth.ofBool_not, holds]

/-- Only the leaves of a tree matter to its value. -/
theorem holds_congr {v w : α → Bool} {p : Condition α} (h : ∀ a ∈ p.leaves, v a = w a) :
    p.holds v = p.holds w := by
  induction p with
  | leaf a => exact h a List.mem_cons_self
  | and p q hp hq =>
    rw [holds, holds, hp fun a ha => h a (List.mem_append_left _ ha),
      hq fun a ha => h a (List.mem_append_right _ ha)]
  | or p q hp hq =>
    rw [holds, holds, hp fun a ha => h a (List.mem_append_left _ ha),
      hq fun a ha => h a (List.mem_append_right _ ha)]
  | not p hp => rw [holds, holds, hp h]

/-! ## The tree that SQL reads -/

/-- A condition with AND and an operand put after it: only the last term is joined. -/
def conjoin : Condition α → Condition α → Condition α
  | .or p q, r => .or p (.and q r)
  | p, r => .and p r

/-- The tree that SQL reads where the calls built `p`. -/
def sql : Condition α → Condition α
  | .leaf a => .leaf a
  | .and p q => p.sql.conjoin q.sql
  | .or p q => .or p.sql q.sql
  | .not p => .not p.sql

/-- A term, or a condition whose last term is in sight. -/
inductive Flat : List (Token α) → Condition α → Prop where
  | term {ts q} (h : Reads .term ts q) (single : ∀ r, conjoin q r = .and q r) : Flat ts q
  | or {ts us q r} (left : Reads .condition ts q) (right : Reads .term us r) :
      Flat (ts ++ .or :: us) (.or q r)

/-- What is flat is a condition. -/
theorem Flat.reads {ts : List (Token α)} {q : Condition α} (h : Flat ts q) :
    Reads .condition ts q := by
  cases h with
  | term h _ => exact .term h
  | or left right => exact .or left right

/-- AND and an operand go to the last term. -/
theorem Flat.conjoin {ts us : List (Token α)} {q r : Condition α} (h : Flat ts q)
    (right : Reads .factor us r) : Flat (ts ++ .and :: us) (q.conjoin r) := by
  cases h with
  | term h single =>
    rw [single]
    exact .term (.and h right) fun _ => rfl
  | @or ts us' q r' left last =>
    rw [List.append_assoc, List.cons_append]
    exact .or left (.and last right)

/-- What may be put in parentheses is an operand. -/
theorem reads_enclose {p : Condition α} {q : Condition α} (flat : Flat p.tokens q)
    (simple : p.isConnective = false → Reads .factor p.tokens q) :
    Reads .factor (Token.enclose p.isConnective p.tokens) q := by
  cases composite : p.isConnective with
  | false => exact simple composite
  | true => exact .primary (.group flat.reads)

/-- The tokens of a condition are read as `p.sql`; they are an operand unless the last call is an
AND or an OR. -/
theorem flat_tokens (p : Condition α) :
    Flat p.tokens p.sql ∧ (p.isConnective = false → Reads .factor p.tokens p.sql) := by
  -- the first part serves the left operand, which is never enclosed, and the second the others
  induction p with
  | leaf a =>
    have operand : Reads .factor (leaf a).tokens (leaf a).sql := .primary (.atom a)
    exact ⟨.term (.factor operand) fun _ => rfl, fun _ => operand⟩
  | and p q hp hq => exact ⟨hp.1.conjoin (reads_enclose hq.1 hq.2), fun h => Bool.noConfusion h⟩
  | or p q hp hq =>
    exact ⟨.or hp.1.reads (.factor (reads_enclose hq.1 hq.2)), fun h => Bool.noConfusion h⟩
  | not p hp =>
    have operand : Reads .factor (not p).tokens (not p).sql := .not (reads_enclose hp.1 hp.2)
    exact ⟨.term (.factor operand) fun _ => rfl, fun _ => operand⟩

/-- **SQL reads the tokens of a condition as `p.sql`, and as nothing else.** -/
theorem reads_tokens_iff {p q : Condition α} : Reads .condition p.tokens q ↔ q = p.sql := by
  constructor
  · intro h
    exact h.unique (flat_tokens p).1.reads
  · rintro rfl
    exact (flat_tokens p).1.reads

/-! ## Where SQL reads what was built -/

/-- Whether the last call is an OR. -/
def isOr : Condition α → Bool
  | .or _ _ => true
  | _ => false

/-- No AND has an OR as its left operand. -/
def RespectsPrecedence : Condition α → Prop
  | .leaf _ => True
  | .and p q => p.isOr = false ∧ p.RespectsPrecedence ∧ q.RespectsPrecedence
  | .or p q => p.RespectsPrecedence ∧ q.RespectsPrecedence
  | .not p => p.RespectsPrecedence

/-- Whether a tree respects precedence can be decided by going through it. -/
def decideRespectsPrecedence : (p : Condition α) → Decidable p.RespectsPrecedence
  | .leaf _ => .isTrue trivial
  | .and p q =>
    have := p.decideRespectsPrecedence
    have := q.decideRespectsPrecedence
    inferInstanceAs (Decidable (_ ∧ _ ∧ _))
  | .or p q =>
    have := p.decideRespectsPrecedence
    have := q.decideRespectsPrecedence
    inferInstanceAs (Decidable (_ ∧ _))
  | .not p => p.decideRespectsPrecedence

instance (p : Condition α) : Decidable p.RespectsPrecedence :=
  p.decideRespectsPrecedence

theorem conjoin_of_not_isOr {p : Condition α} (h : p.isOr = false) (r : Condition α) :
    p.conjoin r = .and p r := by
  cases p with
  | or p q => cases h
  | leaf a | and p q | not p => rfl

/-- SQL reads such a tree as it was built. -/
theorem sql_eq_self {p : Condition α} (h : p.RespectsPrecedence) : p.sql = p := by
  induction p with
  | leaf a => rfl
  | and p q hp hq =>
    obtain ⟨alone, left, right⟩ := h
    rw [sql, hp left, hq right, conjoin_of_not_isOr alone]
  | or p q hp hq => rw [sql, hp h.1, hq h.2]
  | not p hp => rw [sql, hp h]

/-! ## Where it does not -/

/-- An operand that holds is not seen after AND. -/
theorem holds_conjoin_of_holds {v : α → Bool} {q r : Condition α} (h : r.holds v = true) :
    (q.conjoin r).holds v = q.holds v := by
  cases q with
  | or p q => rw [conjoin, holds, holds, holds, h, Bool.and_true]
  | leaf a | and p q | not p => exact (congrArg _ h).trans (Bool.and_true _)

/-- A condition that does not hold is not seen before AND. -/
theorem holds_conjoin_of_not_holds {v : α → Bool} {q r : Condition α} (h : q.holds v = false) :
    (q.conjoin r).holds v = false := by
  cases q with
  | or p q =>
    rw [holds, Bool.or_eq_false_iff] at h
    rw [conjoin, holds, holds, h.1, h.2, Bool.false_and, Bool.or_false]
  | leaf a | and p q | not p => exact congrArg (· && r.holds v) h

theorem leaves_conjoin (q r : Condition α) : (q.conjoin r).leaves = q.leaves ++ r.leaves := by
  cases q with
  | or p q => exact (List.append_assoc ..).symm
  | leaf a | and p q | not p => rfl

/-- SQL reads every leaf, in its place. -/
theorem leaves_sql (p : Condition α) : p.sql.leaves = p.leaves := by
  induction p with
  | leaf a => rfl
  | and p q hp hq => rw [sql, leaves_conjoin, hp, hq, leaves]
  | or p q hp hq => rw [sql, leaves, hp, hq, leaves]
  | not p hp => rw [sql, leaves, hp, leaves]

/-- Assignments to trees without common leaves can be made together. -/
theorem exists_common {p q : Condition α} (apart : p.leaves.Disjoint q.leaves) (v w : α → Bool) :
    ∃ u : α → Bool, (p.holds u = p.holds v ∧ p.sql.holds u = p.sql.holds v) ∧
      q.holds u = q.holds w ∧ q.sql.holds u = q.sql.holds w := by
  classical
  -- the first assignment on the leaves of `p`, the second everywhere else
  let u : α → Bool := fun a => if a ∈ p.leaves then v a else w a
  have onLeft : ∀ a ∈ p.leaves, u a = v a := fun a ha => if_pos ha
  have onRight : ∀ a ∈ q.leaves, u a = w a := fun a ha => if_neg fun other => apart other ha
  refine ⟨u, ⟨holds_congr onLeft, holds_congr ?_⟩, holds_congr onRight, holds_congr ?_⟩
  · rwa [leaves_sql]
  · rwa [leaves_sql]

/-- Values that two trees without common leaves can take can be taken together. -/
theorem exists_both {p q : Condition α} {b c : Bool} (apart : p.leaves.Disjoint q.leaves)
    (hp : ∃ v : α → Bool, p.holds v = b ∧ p.sql.holds v = b)
    (hq : ∃ v : α → Bool, q.holds v = c ∧ q.sql.holds v = c) :
    ∃ u : α → Bool, (p.holds u = b ∧ p.sql.holds u = b) ∧ q.holds u = c ∧ q.sql.holds u = c := by
  obtain ⟨v, pv, psv⟩ := hp
  obtain ⟨w, qw, qsw⟩ := hq
  obtain ⟨u, ⟨pu, psu⟩, qu, qsu⟩ := exists_common apart v w
  exact ⟨u, ⟨pu.trans pv, psu.trans psv⟩, qu.trans qw, qsu.trans qsw⟩

/-- A tree whose leaves are all different can be given either value, and SQL gives it the same. -/
theorem exists_holds {p : Condition α} (distinct : p.leaves.Nodup) (b : Bool) :
    ∃ v : α → Bool, p.holds v = b ∧ p.sql.holds v = b := by
  induction p generalizing b with
  | leaf a => exact ⟨fun _ => b, rfl, rfl⟩
  | and p q hp hq =>
    obtain ⟨left, right, apart⟩ := List.nodup_append'.mp distinct
    obtain ⟨u, ⟨pu, psu⟩, qu, qsu⟩ := exists_both apart (hp left b) (hq right b)
    refine ⟨u, by rw [holds, pu, qu, Bool.and_self], ?_⟩
    cases b with
    | true => rw [sql, holds_conjoin_of_holds qsu, psu]
    | false => rw [sql, holds_conjoin_of_not_holds psu]
  | or p q hp hq =>
    obtain ⟨left, right, apart⟩ := List.nodup_append'.mp distinct
    obtain ⟨u, ⟨pu, psu⟩, qu, qsu⟩ := exists_both apart (hp left b) (hq right b)
    exact ⟨u, by rw [holds, pu, qu, Bool.or_self], by rw [sql, holds, psu, qsu, Bool.or_self]⟩
  | not p hp =>
    obtain ⟨v, pv, psv⟩ := hp distinct (!b)
    exact ⟨v, by rw [holds, pv, Bool.not_not], by rw [sql, holds, psv, Bool.not_not]⟩

/-- An assignment under which SQL gives a tree another value can be kept while a tree beside it is
given a value of choice. -/
theorem exists_beside {p q : Condition α} (apart : p.leaves.Disjoint q.leaves)
    (differs : ∃ v : α → Bool, p.sql.holds v ≠ p.holds v) (distinct : q.leaves.Nodup) (b : Bool) :
    ∃ u : α → Bool, p.sql.holds u ≠ p.holds u ∧ q.holds u = b ∧ q.sql.holds u = b := by
  obtain ⟨v, psv⟩ := differs
  obtain ⟨w, qw, qsw⟩ := exists_holds distinct b
  obtain ⟨u, ⟨pu, psu⟩, qu, qsu⟩ := exists_common apart v w
  refine ⟨u, ?_, qu.trans qw, qsu.trans qsw⟩
  rwa [pu, psu]

/-- AND after an OR: the first operand of the OR holds and the operand after AND does not, so the
calls give no and SQL gives yes. -/
theorem exists_or_before_and {p q r : Condition α} (left : p.leaves.Nodup) (right : r.leaves.Nodup)
    (apart : p.leaves.Disjoint r.leaves) :
    ∃ v : α → Bool, (and (or p q) r).sql.holds v ≠ (and (or p q) r).holds v := by
  obtain ⟨u, ⟨-, psu⟩, ru, -⟩ :=
    exists_both apart (exists_holds left true) (exists_holds right false)
  have yes : (and (or p q) r).sql.holds u = true := by
    rw [sql, sql, conjoin, holds, psu, Bool.true_or]
  have no : (and (or p q) r).holds u = false := by
    rw [holds, ru, Bool.and_false]
  exact ⟨u, fun same => Bool.noConfusion (yes.symm.trans (same.trans no))⟩

/-- **SQL gives another value to a tree where an OR stands before an AND**, for some assignment,
when the leaves are all different. -/
theorem exists_holds_sql_ne {p : Condition α} (distinct : p.leaves.Nodup)
    (h : ¬ p.RespectsPrecedence) : ∃ v : α → Bool, p.sql.holds v ≠ p.holds v := by
  induction p with
  | leaf a => exact absurd trivial h
  | and p q hp hq =>
    obtain ⟨left, right, apart⟩ := List.nodup_append'.mp distinct
    by_cases leftRespects : p.RespectsPrecedence
    · cases isOr : p.isOr with
      | true =>
        -- the first place where SQL departs from the calls
        cases p with
        | leaf a | and x y | not x => cases isOr
        | or x y =>
          exact exists_or_before_and left.of_append_left right
            fun _ ha other => apart (List.mem_append_left _ ha) other
      | false =>
        -- SQL reads the left operand as built; it holds, so the right operand decides
        have differs := hq right fun rightRespects => h ⟨isOr, leftRespects, rightRespects⟩
        obtain ⟨u, qsu, pu, -⟩ := exists_beside (List.Disjoint.symm apart) differs left true
        refine ⟨u, ?_⟩
        rwa [sql, sql_eq_self leftRespects, conjoin_of_not_isOr isOr, holds, holds, pu,
          Bool.true_and, Bool.true_and]
    · -- the right operand holds and is not seen
      obtain ⟨u, psu, qu, qsu⟩ := exists_beside apart (hp left leftRespects) right true
      refine ⟨u, ?_⟩
      rwa [sql, holds_conjoin_of_holds qsu, holds, qu, Bool.and_true]
  | or p q hp hq =>
    obtain ⟨left, right, apart⟩ := List.nodup_append'.mp distinct
    by_cases leftRespects : p.RespectsPrecedence
    · have differs := hq right fun rightRespects => h ⟨leftRespects, rightRespects⟩
      obtain ⟨u, qsu, pu, psu⟩ := exists_beside (List.Disjoint.symm apart) differs left false
      refine ⟨u, ?_⟩
      rwa [sql, holds, holds, pu, psu, Bool.false_or, Bool.false_or]
    · obtain ⟨u, psu, qu, qsu⟩ := exists_beside apart (hp left leftRespects) right false
      refine ⟨u, ?_⟩
      rwa [sql, holds, holds, qu, qsu, Bool.or_false, Bool.or_false]
  | not p hp =>
    obtain ⟨v, psv⟩ := hp distinct h
    refine ⟨v, fun same => psv ?_⟩
    rw [sql, holds, holds] at same
    exact Bool.not_inj same

/-! ## The text of a filter as SQL reads it -/

/-- **SQL groups as the calls did exactly when no AND has an OR as its left operand.**

The filter is built by any calls over comparisons, and `α` tells the leaves apart.  Its text spells
the tokens of the calls; SQL has one reading of them; that reading has the value of the calls, for
every assignment of truth values, if no AND has an OR as its left operand; and otherwise, when no
leaf occurs twice, some assignment of known truth values tells the reading from the calls. -/
theorem sql_reading_agrees_iff (leaf : α → Filter) (p : Condition α)
    (comparisons : ∀ a ∈ p.leaves, ∃ c k, Filter.compare c k = .ok (leaf a)) :
    (p.map leaf).filter.condition = Token.spell (fun a => (leaf a).condition) p.tokens ∧
      ∃ q : Condition α, (∀ r, Reads .condition p.tokens r ↔ r = q) ∧
        (p.RespectsPrecedence → ∀ v : α → Truth, q.eval v = p.eval v) ∧
        (p.leaves.Nodup → ¬ p.RespectsPrecedence →
          ∃ v : α → Truth, (∀ a, v a ≠ .unknown) ∧ q.eval v ≠ p.eval v) := by
  have simple : ∀ a ∈ p.leaves, (leaf a).composite = false := by
    intro a ha
    obtain ⟨c, k, made⟩ := comparisons a ha
    exact Filter.composite_of_compare made
  refine ⟨condition_filter_map leaf p simple, p.sql, fun r => reads_tokens_iff, ?_, ?_⟩
  · intro respects v
    rw [sql_eq_self respects]
  · intro distinct departs
    obtain ⟨v, differs⟩ := exists_holds_sql_ne distinct departs
    refine ⟨fun a => .ofBool (v a), fun a => Truth.ofBool_ne_unknown _, fun same => differs ?_⟩
    rw [eval_ofBool, eval_ofBool] at same
    exact Truth.ofBool_injective same

/-- The comparisons `A = 1`, `B = 2` and `C = 3`. -/
def threeComparisons : Fin 3 → Filter
  | 0 => ⟨"A = ?", [.int 1], false⟩
  | 1 => ⟨"B = ?", [.int 2], false⟩
  | 2 => ⟨"C = ?", [.int 3], false⟩

/-- The first or the second, and the third. -/
def orThenAnd : Condition (Fin 3) :=
  .and (.or (.leaf 0) (.leaf 1)) (.leaf 2)

/-- The tree is built from comparisons, and some assignment tells the reading of SQL from it. -/
theorem orThenAnd_departs :
    (∀ i, ∃ c k, Filter.compare c k = .ok (threeComparisons i)) ∧
      ∃ q, Reads .condition orThenAnd.tokens q ∧
        ∃ v : Fin 3 → Truth, (∀ i, v i ≠ .unknown) ∧ q.eval v ≠ orThenAnd.eval v := by
  have comparisons : ∀ i, ∃ c k, Filter.compare c k = .ok (threeComparisons i)
    | 0 => ⟨{ name := "A" }, .relation .equal (.int 1), rfl⟩
    | 1 => ⟨{ name := "B" }, .relation .equal (.int 2), rfl⟩
    | 2 => ⟨{ name := "C" }, .relation .equal (.int 3), rfl⟩
  obtain ⟨-, q, reads, -, departs⟩ :=
    sql_reading_agrees_iff threeComparisons orThenAnd fun i _ => comparisons i
  exact ⟨comparisons, q, (reads q).mpr rfl,
    departs (by decide) (by decide)⟩

/-- When only the first is yes, the calls give no; SQL reads the second and the third together, and
that gives yes. -/
theorem or_before_and_is_regrouped :
    (orThenAnd.map threeComparisons).filter.condition = "A = ?\n     OR B = ?\n    AND C = ?" ∧
      ∃ q, Reads .condition orThenAnd.tokens q ∧ q = .or (.leaf 0) (.and (.leaf 1) (.leaf 2)) ∧
        ∃ v : Fin 3 → Truth, v 0 = .yes ∧ v 1 = .no ∧ v 2 = .no ∧
          q.eval v = .yes ∧ orThenAnd.eval v = .no := by
  refine ⟨by decide, _, reads_tokens_iff.mpr rfl, rfl, fun i => if i = 0 then .yes else .no, ?_⟩
  exact ⟨rfl, rfl, rfl, rfl, rfl⟩

end Condition

end BoundSql
