import BoundSql.Proofs.Quoting
import BoundSql.Column

/-!
# Columns derived from columns

Every operation on a column gives another one, and a chain of them gives a column that depends on
three lists only: what is put around the name, in order, the aliases in order, and the sort orders
in order.  Of the last two only the last entry counts, and only an alias can be refused.
`Column.applyAll_eq` says so in one equation for every chain, by induction on the chain with one
case for each kind of operation.

An operation of one kind therefore passes those of the others: chains with the same three lists give
equal columns or the same failure (`Column.applyAll_of_kinds`), and what is written to a column does
not change by aliasing and sorting it.
-/

namespace BoundSql

namespace Name

/-- Why an alias is refused. -/
def aliasFault? (given : String) : Option AliasFault :=
  match checkAlias given with
  | .error fault => some fault
  | .ok _ => none

theorem aliasFault?_eq_none_iff {given : String} :
    aliasFault? given = none ↔ ∃ stored, checkAlias given = .ok stored := by
  unfold aliasFault?
  cases checkAlias given with
  | error fault => simp
  | ok stored => simp

end Name

namespace Column

/-! ## Kinds of operations -/

namespace Operation

/-- What the operation puts around the name. -/
def wrapper? : Operation → Option Wrapper
  | .wrap w => some w
  | _ => none

/-- The alias that the operation gives. -/
def given? : Operation → Option String
  | .underAlias given => some given
  | _ => none

/-- The sort order that the operation sets. -/
def order? : Operation → Option Order
  | .order o => some o
  | _ => none

end Operation

/-- A name inside its wrapper. -/
def Wrapper.around : Wrapper → String → String
  | .qualified t, name =>
    match t.alias? with
    | some a => a ++ "." ++ name
    | none => t.name ++ "." ++ name
  | .min, name => "MIN(" ++ name ++ ")"
  | .max, name => "MAX(" ++ name ++ ")"
  | .sum, name => "SUM(" ++ name ++ ")"
  | .avg, name => "AVG(" ++ name ++ ")"
  | .count, name => "COUNT(" ++ name ++ ")"
  | .distinct, name => "DISTINCT " ++ name
  | .countDistinct, name => "COUNT(DISTINCT " ++ name ++ ")"

theorem wrap_eq (c : Column) (w : Wrapper) : c.wrap w = { c with name := w.around c.name } := by
  have same : w.ends.1 ++ c.name ++ w.ends.2 = w.around c.name := by
    cases w with
    | qualified t =>
      obtain ⟨_, _ | a⟩ := t
      · exact String.append_empty
      · exact String.append_empty
    | distinct => exact String.append_empty
    | min | max | sum | avg | count | countDistinct => rfl
  rw [wrap, same]

/-! ## What a chain gives -/

/-- What a chain puts around the name, from the inside out. -/
def wrappers (ops : List Operation) : List Wrapper :=
  ops.filterMap Operation.wrapper?

/-- The aliases that a chain gives, in order. -/
def aliases (ops : List Operation) : List String :=
  ops.filterMap Operation.given?

/-- The sort orders that a chain sets, in order. -/
def orders (ops : List Operation) : List Order :=
  ops.filterMap Operation.order?

/-- The column that a chain gives when no alias is refused. -/
def derived (c : Column) (ops : List Operation) : Column where
  name := (wrappers ops).foldl (fun name w => w.around name) c.name
  type := c.type
  alias? := ((aliases ops).getLast?.map Name.quotedAlias).or c.alias?
  order? := (orders ops).getLast?.or c.order?

/-- The last entry of a list that goes on counts before one that came earlier. -/
theorem getLast?_cons_or {α : Type} (x : α) (xs : List α) (y? : Option α) :
    (x :: xs).getLast?.or y? = xs.getLast?.or (some x) := by
  rw [List.getLast?_cons]
  cases xs.getLast? <;> rfl

theorem derived_wrap (c : Column) (w : Wrapper) (ops : List Operation) :
    c.derived (.wrap w :: ops) = (c.wrap w).derived ops := by
  rw [wrap_eq]
  rfl

theorem derived_underAlias (c : Column) (given : String) (ops : List Operation) :
    c.derived (.underAlias given :: ops) =
      { c with alias? := some (Name.quotedAlias given) : Column }.derived ops := by
  have last := getLast?_cons_or (Name.quotedAlias given)
    ((aliases ops).map Name.quotedAlias) c.alias?
  rw [← List.map_cons, List.getLast?_map, List.getLast?_map] at last
  simp only [derived]
  rw [← last]
  rfl

theorem derived_order (c : Column) (o : Order) (ops : List Operation) :
    c.derived (.order o :: ops) = (c.withOrder o).derived ops := by
  have last := getLast?_cons_or o (orders ops) c.order?
  simp only [derived, withOrder]
  rw [← last]
  rfl

/-- **What a chain gives**: the first refusal of an alias, or the derived column. -/
theorem applyAll_eq (c : Column) (ops : List Operation) :
    c.applyAll ops =
      match (aliases ops).findSome? Name.aliasFault? with
      | some fault => .error (.invalidArgument (.badAlias fault))
      | none => .ok (c.derived ops) := by
  induction ops generalizing c with
  | nil => rfl
  | cons op ops ih =>
    cases op with
    | wrap w =>
      rw [derived_wrap]
      exact ih (c.wrap w)
    | underAlias given =>
      have first : aliases (.underAlias given :: ops) = given :: aliases ops := rfl
      rw [first, List.findSome?_cons, derived_underAlias, applyAll, apply, withAlias,
        Name.aliasFault?]
      cases checked : Name.checkAlias given with
      | error fault => rfl
      | ok stored =>
        obtain ⟨-, rfl⟩ := Name.checkAlias_eq_ok_iff.mp checked
        exact ih _
    | order o =>
      rw [derived_order]
      exact ih (c.withOrder o)
    | copy => exact ih c

theorem applyAll_eq_ok_iff {c d : Column} {ops : List Operation} :
    c.applyAll ops = .ok d ↔
      (∀ given ∈ aliases ops, ∃ stored, Name.checkAlias given = .ok stored) ∧
        c.derived ops = d := by
  have accepted : (aliases ops).findSome? Name.aliasFault? = none ↔
      ∀ given ∈ aliases ops, ∃ stored, Name.checkAlias given = .ok stored := by
    simp only [List.findSome?_eq_none_iff, Name.aliasFault?_eq_none_iff]
  rw [applyAll_eq, ← accepted]
  cases (aliases ops).findSome? Name.aliasFault? with
  | none => simp
  | some fault => simp

/-- No operation changes the type of a column. -/
theorem type_applyAll {c d : Column} {ops : List Operation} (h : c.applyAll ops = .ok d) :
    d.type = c.type := by
  obtain ⟨-, rfl⟩ := applyAll_eq_ok_iff.mp h
  rfl

theorem mem_aliases {given : String} {ops : List Operation} :
    given ∈ aliases ops ↔ .underAlias given ∈ ops := by
  have gives (op : Operation) : op.given? = some given ↔ op = .underAlias given := by
    cases op <;> simp [Operation.given?]
  simp only [aliases, List.mem_filterMap, gives, exists_eq_right]

theorem exists_applyAll_eq_error_iff {c : Column} {ops : List Operation} :
    (∃ e, c.applyAll ops = .error e) ↔
      ∃ given, .underAlias given ∈ ops ∧ ∀ stored, Name.checkAlias given ≠ .ok stored := by
  have fails : (∃ e, c.applyAll ops = .error e) ↔ ¬ ∃ d, c.applyAll ops = .ok d := by
    cases c.applyAll ops <;> simp
  have refused (given : String) :
      ¬ (.underAlias given ∈ ops → ∃ stored, Name.checkAlias given = .ok stored) ↔
        .underAlias given ∈ ops ∧ ∀ stored, Name.checkAlias given ≠ .ok stored := by
    rw [Classical.not_imp, not_exists]
  simp only [fails, applyAll_eq_ok_iff, exists_and_left, exists_eq', and_true, mem_aliases,
    Classical.not_forall, refused]

/-- **Only the order within each kind counts.** -/
theorem applyAll_of_kinds (c : Column) {ops ops' : List Operation}
    (names : wrappers ops' = wrappers ops) (given : aliases ops' = aliases ops)
    (sorts : orders ops' = orders ops) : c.applyAll ops' = c.applyAll ops := by
  rw [applyAll_eq, applyAll_eq, derived, derived, names, given, sorts]

/-- A chain that wraps nothing keeps the name. -/
theorem name_derived {c : Column} {ops : List Operation}
    (plain : ∀ op ∈ ops, op.wrapper? = none) : (c.derived ops).name = c.name := by
  have none : wrappers ops = [] := List.filterMap_eq_nil_iff.mpr plain
  rw [derived, none]
  rfl

/-- **Chains of operations.**  A chain fails just when one of its aliases is refused.  Otherwise the
name is the name of the column inside the wrappers of the chain, each around what the ones before it
gave; the alias is the stored form of the last alias that is given, and the sort order the last one
that is set, or else what the column had; and the type stays.  Hence operations of different kinds
can be moved past each other, and what is written to a column goes by its name and its type, which
aliasing, sorting and copying it do not touch. -/
theorem applyAll_by_kind (c : Column) (ops : List Operation) :
    ((∃ e, c.applyAll ops = .error e) ↔
      ∃ given, .underAlias given ∈ ops ∧ ∀ stored, Name.checkAlias given ≠ .ok stored) ∧
    (∀ d, c.applyAll ops = .ok d →
      d.name = (wrappers ops).foldl (fun name w => w.around name) c.name ∧
      d.alias? = ((aliases ops).getLast?.map Name.quotedAlias).or c.alias? ∧
      d.order? = (orders ops).getLast?.or c.order? ∧
      d.type = c.type) ∧
    (∀ ops', wrappers ops' = wrappers ops → aliases ops' = aliases ops →
      orders ops' = orders ops → c.applyAll ops' = c.applyAll ops) ∧
    ∀ d v, (∀ op ∈ ops, op.wrapper? = none) → c.applyAll ops = .ok d →
      ColumnValue.of d v = ColumnValue.of c v ∧ ColumnValue.of d v = ⟨c.name, c.type, v⟩ := by
  refine ⟨exists_applyAll_eq_error_iff, ?_, fun ops' => c.applyAll_of_kinds, ?_⟩
  · intro d made
    obtain ⟨-, rfl⟩ := applyAll_eq_ok_iff.mp made
    exact ⟨rfl, rfl, rfl, rfl⟩
  · intro d v plain made
    obtain ⟨-, rfl⟩ := applyAll_eq_ok_iff.mp made
    rw [ColumnValue.of, name_derived plain]
    exact ⟨rfl, rfl⟩

/-- A chain with two aliases and two sort orders among its wrappers, and the same chain with the
operations of each kind together; and a chain that only aliases and sorts. -/
theorem applyAll_by_kind_mixed :
    let c : Column := { name := "A", type := .double }
    let t : Table := { name := "T", alias? := some "U" }
    let mixed : List Operation :=
      [.underAlias "x", .wrap (.qualified t), .order .ascending, .copy, .underAlias "the sum",
        .wrap .sum, .order .descending]
    let sorted : List Operation :=
      [.wrap (.qualified t), .wrap .sum, .underAlias "x", .underAlias "the sum",
        .order .ascending, .order .descending]
    let plain : List Operation := [.underAlias "x", .order .ascending]
    ∃ d e, c.applyAll mixed = .ok d ∧ c.applyAll sorted = .ok d ∧
      d.name = "SUM(U.A)" ∧ d.alias? = some "\"the sum\"" ∧ d.order? = some .descending ∧
      d.type = .double ∧ c.applyAll plain = .ok e ∧
      ColumnValue.of e (some (.int 1)) = ColumnValue.of c (some (.int 1)) ∧
      ColumnValue.of e (some (.int 1)) = ⟨"A", .double, some (.int 1)⟩ := by
  intro c t mixed sorted plain
  have made : c.applyAll mixed = .ok _ := rfl
  have aliased : c.applyAll plain = .ok _ := rfl
  obtain ⟨-, fields, moved, -⟩ := applyAll_by_kind c mixed
  obtain ⟨-, -, -, unwritten⟩ := applyAll_by_kind c plain
  obtain ⟨name, stored, last, type⟩ := fields _ made
  exact ⟨_, _, made, (moved sorted rfl rfl rfl).trans made, name.trans (by decide),
    stored.trans (by decide), last, type, aliased, unwritten _ _ (by decide) aliased⟩

end Column

end BoundSql
