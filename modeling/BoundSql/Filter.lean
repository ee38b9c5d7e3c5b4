import BoundSql.Column

/-! # Filters

A filter is a condition text with placeholders, the values for them from left to right, and a mark
that tells whether the condition is an AND or OR at its root.  A marked condition is put in
parentheses when it becomes the right operand of AND or OR or the operand of NOT.  The left operand
is never put in parentheses.

`Comparison` is what can be said about one column, and `Condition` is the tree of calls that builds
a filter.
-/

namespace BoundSql

/-- A comparison with one value. -/
inductive Relation where
  | equal
  | notEqual
  | greater
  | greaterOrEqual
  | less
  | lessOrEqual
  | like
  | notLike
  deriving DecidableEq, Repr

/-- The operator of a comparison with one value. -/
def Relation.operator : Relation → String
  | .equal => "="
  | .notEqual => "!="
  | .greater => ">"
  | .greaterOrEqual => ">="
  | .less => "<"
  | .lessOrEqual => "<="
  | .like => "LIKE"
  | .notLike => "NOT LIKE"

/-- What is said about a column; `inside` is false for the negated form. -/
inductive Comparison where
  | relation (r : Relation) (v : Value)
  | range (inside : Bool) (low high : Value)
  | list (inside : Bool) (values : List Value)
  | isNull (null : Bool)

namespace Comparison

/-- The operator of a comparison with a range. -/
def rangeOperator (inside : Bool) : String :=
  if inside then "BETWEEN" else "NOT BETWEEN"

/-- The operator of a comparison with a list. -/
def listOperator (inside : Bool) : String :=
  if inside then "IN" else "NOT IN"

/-- A placeholder for each value, with commas between them. -/
def placeholders (count : Nat) : String :=
  String.intercalate ", " (List.replicate count "?")

/-- The condition text of a comparison on a column of a given name. -/
def condition (name : String) : Comparison → String
  | .relation r _ => name ++ " " ++ r.operator ++ " ?"
  | .range inside _ _ => name ++ " " ++ rangeOperator inside ++ " ? AND ?"
  | .list inside values =>
    name ++ " " ++ listOperator inside ++ " (" ++ placeholders values.length ++ ")"
  | .isNull true => name ++ " IS NULL"
  | .isNull false => name ++ " IS NOT NULL"

/-- The values of a comparison. -/
def values : Comparison → List Value
  | .relation _ v => [v]
  | .range _ low high => [low, high]
  | .list _ values => values
  | .isNull _ => []

end Comparison

/-- A condition with its values. -/
structure Filter where
  condition : String
  params : List Value
  composite : Bool

namespace Filter

/-- A condition that is no AND and no OR. -/
def leaf (condition : String) (params : List Value) : Filter :=
  ⟨condition, params, false⟩

/-- A comparison on a column; an empty list is refused. -/
def compare (c : Column) (k : Comparison) : Except SqlError Filter :=
  match k with
  | .list inside [] =>
    .error (.invalidArgument (.emptyList (Comparison.listOperator inside) c.name))
  | k => .ok (leaf (k.condition c.name) k.values)

/-- A condition written by hand, with as many values as placeholders. -/
def template (condition : String) (params : List Value) : Except SqlError Filter :=
  if Text.allBlank condition then .error (.invalidArgument .emptyCondition)
  else if Placeholder.count condition ≠ params.length then
    .error (.invalidArgument (.valueCount (Placeholder.count condition) params.length))
  else .ok (leaf condition params)

/-- The condition as a right operand or under NOT. -/
def grouped (f : Filter) : String :=
  if f.composite then "(" ++ f.condition ++ ")" else f.condition

/-- Two conditions with a separator between them. -/
def combine (separator : String) (f g : Filter) : Filter :=
  ⟨f.condition ++ separator ++ g.grouped, f.params ++ g.params, true⟩

/-- Both conditions; AND stands on a line of its own. -/
def and (f g : Filter) : Filter :=
  combine "\n    AND " f g

/-- One of two conditions; OR is indented so that it ends where AND ends. -/
def or (f g : Filter) : Filter :=
  combine "\n     OR " f g

/-- The condition denied; the result is one operand. -/
def negate (f : Filter) : Filter :=
  ⟨"NOT " ++ f.grouped, f.params, false⟩

/-- Equality of text, values and mark. -/
def equal (f g : Filter) : Bool :=
  f.condition == g.condition && f.params == g.params && f.composite == g.composite

instance : BEq Filter := ⟨equal⟩

end Filter

/-- The calls that build a filter, over leaves of any kind. -/
inductive Condition (α : Type) where
  | leaf (a : α)
  | and (p q : Condition α)
  | or (p q : Condition α)
  | not (p : Condition α)
  deriving DecidableEq, Repr

namespace Condition

/-- The leaves from left to right. -/
def leaves {α : Type} : Condition α → List α
  | .leaf a => [a]
  | .and p q => p.leaves ++ q.leaves
  | .or p q => p.leaves ++ q.leaves
  | .not p => p.leaves

/-- The filter that the calls build. -/
def filter : Condition Filter → Filter
  | .leaf f => f
  | .and p q => p.filter.and q.filter
  | .or p q => p.filter.or q.filter
  | .not p => p.filter.negate

theorem params_filter (p : Condition Filter) :
    p.filter.params = p.leaves.flatMap Filter.params := by
  induction p with
  | leaf f => simp [filter, leaves]
  | and p q hp hq => simp [filter, leaves, Filter.and, Filter.combine, hp, hq]
  | or p q hp hq => simp [filter, leaves, Filter.or, Filter.combine, hp, hq]
  | not p hp => simpa [filter, leaves, Filter.negate] using hp

end Condition

end BoundSql
