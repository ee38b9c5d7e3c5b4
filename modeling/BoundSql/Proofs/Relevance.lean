import BoundSql.Proofs.Chain
import Mathlib.Data.List.Forall2

/-!
# Where aliases, sort orders and types count

A column carries an alias, a sort order and a declared type wherever it goes, and each place in a
statement makes use of one of them at most: the SELECT list shows the alias, the ORDER BY list the
sort order, and a null that is written is bound with the type.  Comparisons and GROUP BY only use
the name.  A table shows its alias in the FROM list of a SELECT; elsewhere the alias only counts in
the names of the columns that were qualified by it.

A `Role` is what a column is there for.  Two columns are alike in a role (`Column.Alike`) when they
have the same name and agree on what that role makes use of, and two clauses are alike
(`Clause.Alike`, one case for each kind of clause) when all their columns are alike in their roles.
Clauses that are alike have the same text, parameters and faults, so chains of them build the same
statement after every clause.

The relation is not finer than need be: at every place of an item list, columns of one name that are
not alike are told apart (`Role.Place.same_iff`).
-/

namespace BoundSql

/-! ## Columns -/

/-- What a column in a statement is there for. -/
inductive Role where
  /-- An item of a SELECT list. -/
  | selected
  /-- The column of a comparison. -/
  | compared
  /-- An item of a GROUP BY list. -/
  | grouped
  /-- An item of an ORDER BY list. -/
  | sorted
  /-- A value or a null is written to the column. -/
  | written (value? : Option Value)

/-- Two columns have the same name, and agree on what a role makes use of. -/
structure Column.Alike (r : Role) (c d : Column) : Prop where
  names : c.name = d.name
  aliases : r = .selected → c.alias? = d.alias?
  orders : r = .sorted → c.order? = d.order?
  types : r = .written none → c.type = d.type

/-- Two things to write: the same value or two nulls, for columns that are alike. -/
inductive ColumnValue.Alike : ColumnValue → ColumnValue → Prop
  | of {value? : Option Value} {c d : Column} (columns : c.Alike (.written value?) d) :
      Alike (.of c value?) (.of d value?)

theorem Table.aliased_right_inj {name : String} {a b : Option String} :
    aliased name a = aliased name b ↔ a = b := by
  have shown (a : String) : (name ++ " AS " ++ a).length ≠ name.length := by
    rw [String.length_append, String.length_append, show " AS ".length = 4 from rfl]
    omega
  constructor
  · intro same
    rcases a with _ | a <;> rcases b with _ | b
    · rfl
    · exact absurd (congrArg String.length same).symm (shown b)
    · exact absurd (congrArg String.length same) (shown a)
    · exact congrArg some ((String.append_right_inj _).mp same)
  · rintro rfl
    rfl

/-- The end of an ORDER BY item. -/
def Order.suffix : Option Order → String
  | none => ""
  | some .ascending => " ASC"
  | some .descending => " DESC"

theorem Order.suffix_injective {o p : Option Order} (same : suffix o = suffix p) : o = p := by
  rcases o with _ | _ | _ <;> rcases p with _ | _ | _ <;> revert same <;> decide

namespace Column

theorem orderItem_eq (c : Column) : c.orderItem = c.name ++ Order.suffix c.order? := by
  rw [orderItem]
  rcases c.order? with _ | _ | _
  · exact String.append_empty.symm
  · exact String.append_assoc ..
  · exact String.append_assoc ..

theorem selectItem_eq_iff {c d : Column} (names : c.name = d.name) :
    c.selectItem = d.selectItem ↔ c.alias? = d.alias? := by
  rw [selectItem, selectItem, names, Table.aliased_right_inj]

theorem orderItem_eq_iff {c d : Column} (names : c.name = d.name) :
    c.orderItem = d.orderItem ↔ c.order? = d.order? := by
  rw [orderItem_eq, orderItem_eq, names, String.append_right_inj]
  exact ⟨Order.suffix_injective, congrArg _⟩

theorem param_eq_iff {c d : Column} {value? : Option Value} :
    (ColumnValue.of c value?).param = (ColumnValue.of d value?).param ↔
      (value? = none → c.type = d.type) := by
  cases value? with
  | none => simp [ColumnValue.of, ColumnValue.param]
  | some v => simp [ColumnValue.of, ColumnValue.param]

end Column

namespace ColumnValue

theorem Alike.names {a b : ColumnValue} (h : a.Alike b) : a.name = b.name := by
  obtain ⟨columns⟩ := h
  exact columns.names

theorem Alike.params {a b : ColumnValue} (h : a.Alike b) : a.param = b.param := by
  obtain ⟨columns⟩ := h
  exact Column.param_eq_iff.mpr fun null => columns.types (congrArg Role.written null)

end ColumnValue

/-! ## Filters and clauses -/

/-- Two filters are built by the same calls, from comparisons on columns that are alike. -/
inductive Filter.Alike : Filter → Filter → Prop
  | same (f : Filter) : Alike f f
  | comparison {c d : Column} {k : Comparison} {f g : Filter} (columns : c.Alike .compared d)
      (left : compare c k = .ok f) (right : compare d k = .ok g) : Alike f g
  | and {f g f' g' : Filter} (left : Alike f f') (right : Alike g g') :
      Alike (f.and g) (f'.and g')
  | or {f g f' g' : Filter} (left : Alike f f') (right : Alike g g') : Alike (f.or g) (f'.or g')
  | negate {f f' : Filter} (inner : Alike f f') : Alike f.negate f'.negate

/-- A comparison only uses the name of its column, also when it is refused. -/
theorem Filter.compare_congr {c d : Column} (names : c.name = d.name) (k : Comparison) :
    compare c k = compare d k := by
  unfold compare
  rw [names]

theorem Filter.Alike.eq {f g : Filter} (h : f.Alike g) : f = g := by
  induction h with
  | same f => rfl
  | comparison columns left right =>
    rw [compare_congr columns.names, right] at left
    exact (Except.ok.inj left).symm
  | and _ _ left right => rw [left, right]
  | or _ _ left right => rw [left, right]
  | negate _ inner => rw [inner]

/-- Two clauses of one kind are alike: their columns are alike in the roles that they have there,
tables of a FROM list are the same, and all other tables have the same names. -/
inductive Clause.Alike : Clause → Clause → Prop
  | select {cs ds : List Column} (columns : List.Forall₂ (Column.Alike .selected) cs ds) :
      Alike (.select cs) (.select ds)
  | fromTables (tables : List Table) : Alike (.fromTables tables) (.fromTables tables)
  | filtered {f g : Filter} (filters : f.Alike g) : Alike (.filtered f) (.filtered g)
  | groupBy {cs ds : List Column} (columns : List.Forall₂ (Column.Alike .grouped) cs ds) :
      Alike (.groupBy cs) (.groupBy ds)
  | orderBy {cs ds : List Column} (columns : List.Forall₂ (Column.Alike .sorted) cs ds) :
      Alike (.orderBy cs) (.orderBy ds)
  | insert : Alike .insert .insert
  | into {t u : Table} (names : t.name = u.name) : Alike (.into t) (.into u)
  | values {xs ys : List ColumnValue} (items : List.Forall₂ ColumnValue.Alike xs ys) :
      Alike (.values xs) (.values ys)
  | update {t u : Table} (names : t.name = u.name) : Alike (.update t) (.update u)
  | assign {xs ys : List ColumnValue} (items : List.Forall₂ ColumnValue.Alike xs ys) :
      Alike (.assign xs) (.assign ys)
  | delete : Alike .delete .delete
  | fromTable {t u : Table} (names : t.name = u.name) : Alike (.fromTable t) (.fromTable u)

/-- Lists whose items agree on a function. -/
theorem map_eq_of_forall₂ {α β : Type} {R : α → α → Prop} {f : α → β} {xs ys : List α}
    (h : List.Forall₂ R xs ys) (agree : ∀ {x y}, R x y → f x = f y) : xs.map f = ys.map f := by
  have images : List.Forall₂ Eq (xs.map f) (ys.map f) :=
    List.rel_map (fun _ _ related => agree related) h
  rwa [List.forall₂_eq_eq_eq] at images

namespace Clause

theorem requireItems_congr {α : Type} {xs ys : List α} (length : xs.length = ys.length)
    (clause item : String) : requireItems xs clause item = requireItems ys clause item := by
  have empty : xs.isEmpty = ys.isEmpty := by
    rw [Bool.eq_iff_iff, List.isEmpty_iff_length_eq_zero, List.isEmpty_iff_length_eq_zero, length]
  rw [requireItems, requireItems, empty]

/-- All that adding a clause depends on. -/
def effect (c : Clause) : Verb × String × List Param × Option ArgumentFault :=
  (c.verb, c.text, c.params, c.fault?)

/-- **Clauses that are alike have the same effect.** -/
theorem Alike.effect_eq {c d : Clause} (h : c.Alike d) : c.effect = d.effect := by
  cases h with
  | select columns =>
    have items := map_eq_of_forall₂ columns fun h =>
      (Column.selectItem_eq_iff h.names).mpr (h.aliases rfl)
    simp only [effect, verb, text, params, fault?, items, requireItems_congr columns.length_eq]
  | groupBy columns =>
    have items := map_eq_of_forall₂ columns Column.Alike.names
    simp only [effect, verb, text, params, fault?, items, requireItems_congr columns.length_eq]
  | orderBy columns =>
    have items := map_eq_of_forall₂ columns fun h =>
      (Column.orderItem_eq_iff h.names).mpr (h.orders rfl)
    simp only [effect, verb, text, params, fault?, items, requireItems_congr columns.length_eq]
  | values items =>
    have names := map_eq_of_forall₂ items ColumnValue.Alike.names
    have bound := map_eq_of_forall₂ items ColumnValue.Alike.params
    have marks := map_eq_of_forall₂ items fun _ => rfl (a := "?")
    simp only [effect, verb, text, params, fault?, names, bound, marks,
      requireItems_congr items.length_eq]
  | assign items =>
    have settings := map_eq_of_forall₂ items fun h => congrArg (· ++ " = ?") h.names
    have bound := map_eq_of_forall₂ items ColumnValue.Alike.params
    simp only [effect, verb, text, params, fault?, settings, bound,
      requireItems_congr items.length_eq]
  | filtered filters => rw [filters.eq]
  | into names | update names | fromTable names =>
    simp only [effect, verb, text, params, fault?, names]
  | fromTables | insert | delete => rfl

end Clause

/-! ## Places of a column -/

/-- The clauses in which one column is put in a role, among other items. -/
inductive Role.Place : Role → (Column → Clause) → Prop
  | select (xs ys : List Column) : Place .selected fun c => .select (xs ++ c :: ys)
  | groupBy (xs ys : List Column) : Place .grouped fun c => .groupBy (xs ++ c :: ys)
  | orderBy (xs ys : List Column) : Place .sorted fun c => .orderBy (xs ++ c :: ys)
  | values (value? : Option Value) (xs ys : List ColumnValue) :
      Place (.written value?) fun c => .values (xs ++ .of c value? :: ys)
  | assign (value? : Option Value) (xs ys : List ColumnValue) :
      Place (.written value?) fun c => .assign (xs ++ .of c value? :: ys)

/-- Joined texts with one text in a given place. -/
theorem intercalate_place_inj {separator s t : String} (xs ys : List String) :
    String.intercalate separator (xs ++ s :: ys) = String.intercalate separator (xs ++ t :: ys) ↔
      s = t := by
  induction xs with
  | nil =>
    cases ys with
    | nil => simp only [List.nil_append, String.intercalate_singleton]
    | cons y ys =>
      simp only [List.nil_append, String.intercalate_cons_cons, String.append_left_inj]
  | cons x xs ih =>
    have first (u : String) : String.intercalate separator (x :: xs ++ u :: ys) =
        x ++ separator ++ String.intercalate separator (xs ++ u :: ys) := by
      cases xs with
      | nil => exact String.intercalate_cons_cons ..
      | cons y xs => exact String.intercalate_cons_cons ..
    rw [first, first, String.append_right_inj, ih]

theorem Clause.block_place_inj {keyword s t : String} (xs ys : List String) :
    block keyword (xs ++ s :: ys) = block keyword (xs ++ t :: ys) ↔ s = t := by
  simp only [block, itemLines, String.append_left_inj, String.append_right_inj,
    intercalate_place_inj]

theorem params_place_inj {a b : ColumnValue} (xs ys : List ColumnValue) :
    (xs ++ a :: ys).map ColumnValue.param = (xs ++ b :: ys).map ColumnValue.param ↔
      a.param = b.param := by
  simp only [List.map_append, List.map_cons, List.append_cancel_left_eq, List.cons.injEq, and_true]

/-- **At every place columns of one name are told apart unless they are alike.** -/
theorem Role.Place.same_iff {r : Role} {place : Column → Clause} (h : r.Place place) {c d : Column}
    (names : c.name = d.name) :
    (place c).text = (place d).text ∧ (place c).params = (place d).params ↔ c.Alike r d := by
  cases h with
  | select xs ys =>
    simp only [Clause.text, Clause.params, List.map_append, List.map_cons, Clause.block_place_inj,
      Column.selectItem_eq_iff names, and_true]
    exact ⟨fun h => ⟨names, fun _ => h, nofun, nofun⟩, fun h => h.aliases rfl⟩
  | groupBy xs ys =>
    simp only [Clause.text, Clause.params, List.map_append, List.map_cons, names, and_self,
      true_iff]
    exact ⟨names, nofun, nofun, nofun⟩
  | orderBy xs ys =>
    simp only [Clause.text, Clause.params, List.map_append, List.map_cons, Clause.block_place_inj,
      Column.orderItem_eq_iff names, and_true]
    exact ⟨fun h => ⟨names, nofun, fun _ => h, nofun⟩, fun h => h.orders rfl⟩
  | values value? xs ys | assign value? xs ys =>
    have same : ColumnValue.name (.of c value?) = ColumnValue.name (.of d value?) := names
    refine (and_iff_right ?_).trans
      ((params_place_inj xs ys).trans (Column.param_eq_iff.trans ⟨fun h => ?_, fun h null => ?_⟩))
    · simp only [Clause.text, List.map_append, List.map_cons, same]
    · exact ⟨names, nofun, nofun, fun null => h (Role.written.inj null)⟩
    · exact h.types (congrArg Role.written null)

/-! ## Statements -/

namespace Statement

/-- Clauses with the same effect are added alike. -/
theorem add_congr {c d : Clause} (same : c.effect = d.effect) (s : Option Statement) :
    add s c = add s d := by
  simp only [Clause.effect, Prod.mk.injEq] at same
  obtain ⟨verb, text, params, fault⟩ := same
  rw [add, add, verb, text, params, fault]

/-- Chains of clauses that are alike are added alike. -/
theorem addAll_congr {cs ds : List Clause} (alike : List.Forall₂ Clause.Alike cs ds)
    (s : Option Statement) : addAll s cs = addAll s ds := by
  induction alike generalizing s with
  | nil => rfl
  | cons first _ ih =>
    rw [addAll, addAll, add_congr first.effect_eq]
    split
    · rfl
    · exact ih _

/-- Two statements that differ in one clause. -/
theorem same_iff_of_build {before after : List Clause} {c d : Clause} {s t : Statement}
    (left : build (before ++ c :: after) = .ok (some s))
    (right : build (before ++ d :: after) = .ok (some t)) :
    s.sql = t.sql ∧ s.params = t.params ↔ c.text = d.text ∧ c.params = d.params := by
  obtain ⟨leftSql, leftParams⟩ := build_eq_ok left
  obtain ⟨rightSql, rightParams⟩ := build_eq_ok right
  rw [leftSql, rightSql, leftParams, rightParams]
  simp only [List.map_append, List.map_cons, String.join_append, String.join_cons,
    String.append_right_inj, String.append_left_inj, List.flatMap_append, List.flatMap_cons,
    List.append_cancel_left_eq, List.append_cancel_right_eq]

/-- **Where aliases, sort orders and types count.**  Chains of clauses that are alike build the same
after every clause: the same statement, with the same text and parameters, or the same failure.  So
the alias of a column only counts in a SELECT list, its sort order only in an ORDER BY list, its
type only where a null is written, and the alias of a table only in the FROM list of a SELECT.  At
those places it does count: two statements that only differ in one column have the same text and
parameters just when what the place of the column makes use of is the same. -/
theorem alike_builds_agree :
    (∀ cs ds, List.Forall₂ Clause.Alike cs ds → ∀ n, build (cs.take n) = build (ds.take n)) ∧
    ∀ (r : Role) (place : Column → Clause), r.Place place →
      ∀ (before after : List Clause) (c d : Column) (s t : Statement), c.name = d.name →
        build (before ++ place c :: after) = .ok (some s) →
        build (before ++ place d :: after) = .ok (some t) →
        (s.sql = t.sql ∧ s.params = t.params ↔ c.Alike r d) := by
  constructor
  · intro cs ds alike n
    exact addAll_congr (List.forall₂_take n alike) none
  · intro r place h before after c d s t names left right
    exact (same_iff_of_build left right).trans (h.same_iff names)

/-- A grouped SELECT whose columns have other aliases, sort orders and types in the places that do
not show them, and the same SELECT sorted the other way. -/
theorem alike_builds_agree_grouped :
    let c : Column := { name := "A", type := .bigInt, alias? := some "x" }
    let d : Column := { name := "A", type := .date, alias? := some "x", order? := some .ascending }
    let up : Column := { name := "A", order? := some .ascending }
    let opening : List Clause := [.select [c], .fromTables [{ name := "T" }], .groupBy [c]]
    let opening' : List Clause := [.select [d], .fromTables [{ name := "T" }], .groupBy [up]]
    (∀ n, build ((opening ++ [Clause.orderBy [d]]).take n) =
      build ((opening' ++ [Clause.orderBy [up]]).take n)) ∧
    ∃ s t, build (opening ++ [.orderBy [d]]) = .ok (some s) ∧
      build (opening ++ [.orderBy [d.withOrder .descending]]) = .ok (some t) ∧
      ¬ (s.sql = t.sql ∧ s.params = t.params) := by
  intro c d up opening opening'
  obtain ⟨agree, tell⟩ := alike_builds_agree
  constructor
  · have columns {r : Role} {c d : Column} (h : c.Alike r d) :
        List.Forall₂ (Column.Alike r) [c] [d] := .cons h .nil
    exact agree _ _ (.cons (.select (columns ⟨rfl, fun _ => rfl, nofun, nofun⟩))
      (.cons (.fromTables _) (.cons (.groupBy (columns ⟨rfl, nofun, nofun, nofun⟩))
        (.cons (.orderBy (columns ⟨rfl, nofun, fun _ => rfl, nofun⟩)) .nil))))
  · have left : build (opening ++ [.orderBy [d]]) = .ok (some ⟨.selectOrderBy, _, _⟩) := rfl
    have right : build (opening ++ [.orderBy [d.withOrder .descending]]) =
      .ok (some ⟨.selectOrderBy, _, _⟩) := rfl
    have sorted := tell .sorted _ (.orderBy [] []) opening [] d (d.withOrder .descending) _ _ rfl
      left right
    exact ⟨_, _, left, right, fun same => nomatch (sorted.mp same).orders rfl⟩

end Statement

end BoundSql
