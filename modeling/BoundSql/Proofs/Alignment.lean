import BoundSql.Proofs.Chain
import BoundSql.Proofs.Layout
import BoundSql.Proofs.Token
import BoundSql.Proofs.Vocabulary
import Mathlib.Data.List.Basic

/-!
# Alignment of placeholders and parameters

A connection binds the `k`-th parameter of a statement to its `k`-th placeholder.  This module shows
that these two belong together: over a balanced vocabulary, whatever clauses a legal chain adds, the
`k`-th placeholder of the text stands in the item of SET, the slot of VALUES or the leaf of WHERE
that supplies the `k`-th parameter.

Each clause is given its layout (`Clause.layout`), which spells the text that the clause emits and
supplies its parameters.  Adding a clause appends both, so the layout of a statement is that of its
clauses in a row, and alignment is alignment of each piece.

Values that are written come before values that are compared with: no stage offers SET or VALUES
after WHERE (`Stage.settled`).
-/

namespace BoundSql

variable {V : Vocabulary} {p : Condition Filter}

/-! ## The layout of a condition -/

/-- A token as a piece; an atom is a contributor. -/
def Token.piece : Token Filter → Piece
  | .atom f => .part (.condition f)
  | .and => .fixed "\n    AND "
  | .or => .fixed "\n     OR "
  | .not => .fixed "NOT "
  | .opening => .fixed "("
  | .closing => .fixed ")"

/-- The pieces of the condition that calls build. -/
def Condition.layout (p : Condition Filter) : List Piece :=
  p.tokens.map Token.piece

namespace Condition

theorem spell_layout (simple : ∀ f ∈ p.leaves, f.composite = false) :
    Layout.spell p.layout = p.filter.condition := by
  have same (t : Token Filter) : t.piece.text = t.text Filter.condition := by
    cases t <;> rfl
  rw [condition_filter p simple, Layout.spell, layout, List.map_map, Token.spell]
  exact congrArg String.join (List.map_congr_left fun t _ => same t)

/-- The contributors of a condition are its leaves, from left to right. -/
theorem contributors_layout (p : Condition Filter) :
    Layout.contributors p.layout = p.leaves.map .condition := by
  have each (t : Token Filter) : t.piece.contributors = t.atom?.toList.map .condition := by
    cases t <;> rfl
  rw [← atoms_tokens, layout, Layout.contributors, List.flatMap_map, funext each]
  induction p.tokens with
  | nil => rfl
  | cons t ts ih =>
    rw [List.flatMap_cons, ih]
    cases t <;> rfl

/-- Connectives and parentheses are neutral, and leaves are aligned. -/
theorem aligned_layout (leaves : ∀ f ∈ p.leaves, f.Leaf V) (hV : V.Balanced) :
    ∀ q ∈ p.layout, q.Aligned := by
  intro q hq
  obtain ⟨t, ht, rfl⟩ := List.mem_map.mp hq
  cases t with
  | atom f =>
    have isLeaf : f ∈ p.leaves := by
      rw [← atoms_tokens]
      exact List.mem_filterMap.mpr ⟨_, ht, rfl⟩
    have aligned := (leaves f isLeaf).aligned hV
    rwa [Piece.Aligned, Token.piece, Piece.text, Piece.params, Contributor.params,
      List.length_map]
  | and => decide
  | or => decide
  | not => decide
  | opening => decide
  | closing => decide

end Condition

/-! ## The layout of a clause -/

namespace Clause

/-- The pieces of a keyword line and of item lines. -/
def blockLayout (keyword : String) (items : List (List Piece)) : List Piece :=
  .fixed (keyword ++ "\n" ++ indent) :: (Layout.joined (",\n" ++ indent) items ++ [.fixed "\n"])

/-- The pieces of the slots of VALUES. -/
def slotsLayout (items : List ColumnValue) : List Piece :=
  .fixed "(" :: (Layout.joined ", " (Layout.parts .slot items) ++ [.fixed ")"])

/-- The pieces of a clause; the filter of a WHERE is the one that the calls of `p` build. -/
def layout (p : Condition Filter) : Clause → List Piece
  | .filtered _ => blockLayout "WHERE" [p.layout]
  | .assign items => blockLayout "SET" (Layout.parts .assignment items)
  | .values items =>
    .fixed (indent ++ inParentheses (items.map ColumnValue.name) ++ "\n") ::
      blockLayout "VALUES" [slotsLayout items]
  | c => [.fixed c.text]

/-- The items of SET and the slots of VALUES. -/
def writes : Clause → List Contributor
  | .assign items => items.map .assignment
  | .values items => items.map .slot
  | _ => []

/-- The leaves of WHERE. -/
def conditions (p : Condition Filter) : Clause → List Contributor
  | .filtered _ => p.leaves.map .condition
  | _ => []

theorem spell_blockLayout (keyword : String) (items : List (List Piece)) :
    Layout.spell (blockLayout keyword items) = block keyword (items.map Layout.spell) := by
  have last : Layout.spell [Piece.fixed "\n"] = "\n" := by decide
  rw [blockLayout, Layout.spell_cons, Layout.spell_append, Layout.spell_joined, last, Piece.text,
    block, itemLines]
  simp only [String.append_assoc]

theorem contributors_blockLayout (keyword : String) (items : List (List Piece)) :
    Layout.contributors (blockLayout keyword items) = items.flatMap Layout.contributors := by
  rw [blockLayout, Layout.contributors, List.flatMap_cons, List.flatMap_append,
    Layout.flatMap_joined fun _ => rfl]
  exact List.append_nil _

/-- The pieces of a block are aligned if those of its items are. -/
theorem aligned_blockLayout {keyword : String} {items : List (List Piece)}
    (hk : Placeholder.Neutral keyword) (h : ∀ x ∈ items, ∀ q ∈ x, q.Aligned) :
    ∀ q ∈ blockLayout keyword items, q.Aligned := by
  intro q hq
  rw [blockLayout, List.mem_cons, List.mem_append, List.mem_singleton] at hq
  rcases hq with rfl | inItems | rfl
  · have line : Placeholder.Neutral ("\n" ++ indent) := by decide
    rw [Piece.Aligned, Piece.text, String.append_assoc]
    exact hk.append line
  · rcases Layout.mem_joined inItems with rfl | ⟨x, hx, hqx⟩
    · decide
    · exact h x hx q hqx
  · decide

theorem spell_slotsLayout (items : List ColumnValue) :
    Layout.spell (slotsLayout items) = inParentheses (items.map fun _ => "?") := by
  rw [slotsLayout, Layout.spell_cons, Layout.spell_append, Layout.spell_joined,
    Layout.spell_parts, Layout.spell_singleton, inParentheses, ← String.append_assoc]
  rfl

theorem contributors_slotsLayout (items : List ColumnValue) :
    Layout.contributors (slotsLayout items) = items.map .slot := by
  rw [slotsLayout, Layout.contributors, List.flatMap_cons, List.flatMap_append,
    Layout.flatMap_joined fun _ => rfl]
  exact (List.append_nil _).trans (Layout.contributors_parts _ _)

theorem aligned_slotsLayout (items : List ColumnValue) : ∀ q ∈ slotsLayout items, q.Aligned := by
  intro q hq
  rw [slotsLayout, List.mem_cons, List.mem_append, List.mem_singleton] at hq
  rcases hq with rfl | inSlots | rfl
  · decide
  · rcases Layout.mem_joined inSlots with rfl | ⟨x, hx, hqx⟩
    · decide
    · refine Layout.aligned_parts (fun cv _ => ?_) x hx q hqx
      have slot : Placeholder.Aligned "?" 1 := by decide
      exact slot
  · decide

/-- **The layout of a clause spells its text.** -/
theorem spell_layout {c : Clause} (h : c.In V p) : Layout.spell (c.layout p) = c.text := by
  cases c with
  | filtered f =>
    obtain ⟨rfl, leaves⟩ := h
    have condition := Condition.spell_layout fun f hf => (leaves f hf).composite
    rw [layout, spell_blockLayout, List.map_cons, List.map_nil, condition, text]
  | assign items =>
    rw [layout, spell_blockLayout, Layout.spell_parts, text]
    rfl
  | values items =>
    rw [layout, Layout.spell_cons, spell_blockLayout, List.map_cons, List.map_nil,
      spell_slotsLayout, text]
    rfl
  | select columns => exact Layout.spell_singleton _
  | fromTables tables => exact Layout.spell_singleton _
  | groupBy columns => exact Layout.spell_singleton _
  | orderBy columns => exact Layout.spell_singleton _
  | insert => exact Layout.spell_singleton _
  | into t => exact Layout.spell_singleton _
  | update t => exact Layout.spell_singleton _
  | delete => exact Layout.spell_singleton _
  | fromTable t => exact Layout.spell_singleton _

/-- The contributors of a clause. -/
theorem contributors_layout (p : Condition Filter) (c : Clause) :
    Layout.contributors (c.layout p) = c.writes ++ c.conditions p := by
  cases c with
  | filtered f =>
    rw [layout, contributors_blockLayout, List.flatMap_cons, List.flatMap_nil, List.append_nil,
      Condition.contributors_layout]
    rfl
  | assign items =>
    rw [layout, contributors_blockLayout, Layout.contributors_parts]
    exact (List.append_nil _).symm
  | values items =>
    rw [layout, Layout.contributors, List.flatMap_cons, ← Layout.contributors,
      contributors_blockLayout, List.flatMap_cons, List.flatMap_nil, List.append_nil,
      contributors_slotsLayout]
    exact (List.append_nil _).symm
  | select columns => rfl
  | fromTables tables => rfl
  | groupBy columns => rfl
  | orderBy columns => rfl
  | insert => rfl
  | into t => rfl
  | update t => rfl
  | delete => rfl
  | fromTable t => rfl

/-- The layout of a clause supplies its parameters. -/
theorem supply_layout {c : Clause} (h : c.In V p) : Layout.supply (c.layout p) = c.params := by
  rw [Layout.supply_eq_flatMap_contributors, contributors_layout]
  cases c with
  | filtered f =>
    obtain ⟨rfl, -⟩ := h
    show (p.leaves.map Contributor.condition).flatMap Contributor.params =
      p.filter.params.map .value
    rw [List.flatMap_map, Condition.params_filter, List.map_flatMap]
    rfl
  | assign items =>
    show (items.map Contributor.assignment ++ []).flatMap Contributor.params = items.map _
    rw [List.append_nil, List.flatMap_map, List.map_eq_flatMap]
    rfl
  | values items =>
    show (items.map Contributor.slot ++ []).flatMap Contributor.params = items.map _
    rw [List.append_nil, List.flatMap_map, List.map_eq_flatMap]
    rfl
  | select columns => rfl
  | fromTables tables => rfl
  | groupBy columns => rfl
  | orderBy columns => rfl
  | insert => rfl
  | into t => rfl
  | update t => rfl
  | delete => rfl
  | fromTable t => rfl

/-- A block of neutral items is neutral. -/
theorem neutral_block {keyword : String} {items : List String}
    (hk : Placeholder.Neutral keyword) (h : ∀ s ∈ items, Placeholder.Neutral s) :
    Placeholder.Neutral (block keyword items) := by
  have newline : Placeholder.Neutral "\n" := by decide
  have margin : Placeholder.Neutral indent := by decide
  have separator : Placeholder.Neutral (",\n" ++ indent) := by decide
  exact ((hk.append newline).append (margin.append (separator.intercalate h))).append newline

/-- A block of neutral texts of things that are made from a vocabulary is neutral. -/
theorem neutral_block_map {α : Type} {keyword : String} {items : List α} {render : α → String}
    (hk : Placeholder.Neutral keyword) (h : ∀ x ∈ items, Placeholder.Neutral (render x)) :
    Placeholder.Neutral (block keyword (items.map render)) := by
  refine neutral_block hk fun s hs => ?_
  obtain ⟨x, hx, rfl⟩ := List.mem_map.mp hs
  exact h x hx

/-- Neutral texts in parentheses are neutral. -/
theorem neutral_inParentheses {items : List String} (h : ∀ s ∈ items, Placeholder.Neutral s) :
    Placeholder.Neutral (inParentheses items) := by
  have opening : Placeholder.Neutral "(" := by decide
  have closing : Placeholder.Neutral ")" := by decide
  have separator : Placeholder.Neutral ", " := by decide
  exact (opening.append (separator.intercalate h)).append closing

/-- The line of names before VALUES is neutral, and each slot has its placeholder. -/
theorem aligned_valuesLayout {items : List ColumnValue}
    (h : ∀ cv ∈ items, Placeholder.Neutral cv.name) :
    ∀ q ∈ layout p (.values items), q.Aligned := by
  intro q hq
  rw [layout, List.mem_cons] at hq
  rcases hq with rfl | inBlock
  · have margin : Placeholder.Neutral indent := by decide
    have newline : Placeholder.Neutral "\n" := by decide
    have names : Placeholder.Neutral (inParentheses (items.map ColumnValue.name)) := by
      refine neutral_inParentheses fun s hs => ?_
      obtain ⟨cv, hcv, rfl⟩ := List.mem_map.mp hs
      exact h cv hcv
    exact (margin.append names).append newline
  · refine aligned_blockLayout (by decide) (fun x hx => ?_) q inBlock
    rw [List.mem_singleton] at hx
    subst hx
    exact aligned_slotsLayout items

/-- A written column has a neutral name. -/
theorem neutral_name_of_write (hV : V.Balanced) {items : List ColumnValue}
    (h : ∀ cv ∈ items, ∃ (c : Column) (v : Option Value), c.Named V ∧ cv = ColumnValue.of c v) :
    ∀ cv ∈ items, Placeholder.Neutral cv.name := by
  intro cv hcv
  obtain ⟨c, v, named, rfl⟩ := h cv hcv
  exact named.neutral_name hV

/-- **Over a balanced vocabulary, every piece of a clause is aligned.** -/
theorem aligned_layout {c : Clause} (h : c.In V p) (hV : V.Balanced) :
    ∀ q ∈ c.layout p, q.Aligned := by
  have single {s : String} (hs : Placeholder.Neutral s) : ∀ q ∈ [Piece.fixed s], q.Aligned := by
    intro q hq
    rw [List.mem_singleton] at hq
    subst hq
    exact hs
  have table {t : Table} (ht : t.Named V) : ∀ s ∈ [t.name], Placeholder.Neutral s := by
    intro s hs
    rw [List.mem_singleton] at hs
    subst hs
    exact ht.neutral_name hV
  cases c with
  | filtered f =>
    refine aligned_blockLayout (by decide) fun x hx => ?_
    rw [List.mem_singleton] at hx
    subst hx
    exact Condition.aligned_layout h.2 hV
  | assign items =>
    refine aligned_blockLayout (by decide) (Layout.aligned_parts fun cv hcv => ?_)
    have slot : Placeholder.Aligned " = ?" 1 := by decide
    exact slot.prepend (neutral_name_of_write hV h cv hcv)
  | values items => exact aligned_valuesLayout (neutral_name_of_write hV h)
  | select columns =>
    exact single (neutral_block_map (by decide) fun c hc => (h c hc).neutral_selectItem hV)
  | fromTables tables =>
    exact single (neutral_block_map (by decide) fun t ht => (h t ht).neutral_item hV)
  | groupBy columns =>
    exact single (neutral_block_map (by decide) fun c hc => (h c hc).neutral_name hV)
  | orderBy columns =>
    exact single (neutral_block_map (by decide) fun c hc => (h c hc).neutral_orderItem hV)
  | insert =>
    have keyword : Placeholder.Neutral "INSERT\n" := by decide
    exact single keyword
  | into t => exact single (neutral_block (by decide) (table h))
  | update t => exact single (neutral_block (by decide) (table h))
  | delete =>
    have keyword : Placeholder.Neutral "DELETE\n" := by decide
    exact single keyword
  | fromTable t => exact single (neutral_block (by decide) (table h))

/-- A clause that does not write has no contributor but the leaves of its filter. -/
theorem writes_eq_nil {c : Clause} (values : c.verb ≠ .values) (assign : c.verb ≠ .assign) :
    c.writes = [] := by
  cases c <;> simp_all [verb, writes]

/-- A clause other than WHERE has no leaves. -/
theorem conditions_eq_nil {c : Clause} (h : c.verb ≠ .filtered) : c.conditions p = [] := by
  cases c <;> simp_all [verb, conditions]

end Clause

/-! ## The layout of a statement -/

namespace Statement

/-- The pieces of the statement that clauses build. -/
def layout (p : Condition Filter) (cs : List Clause) : List Piece :=
  cs.flatMap (Clause.layout p)

variable {cs : List Clause} {s : Statement}

theorem spell_layout (made : ∀ c ∈ cs, c.In V p) (built : build cs = .ok (some s)) :
    Layout.spell (layout p cs) = s.sql := by
  rw [(build_eq_ok built).1]
  clear built
  induction cs with
  | nil => rfl
  | cons c cs ih =>
    have rest := ih fun d hd => made d (List.mem_cons_of_mem c hd)
    rw [layout, List.flatMap_cons, Layout.spell_append, ← layout, rest,
      Clause.spell_layout (made c List.mem_cons_self), List.map_cons, String.join_cons]

theorem supply_layout (made : ∀ c ∈ cs, c.In V p) (built : build cs = .ok (some s)) :
    Layout.supply (layout p cs) = s.params := by
  rw [(build_eq_ok built).2]
  clear built
  induction cs with
  | nil => rfl
  | cons c cs ih =>
    have rest := ih fun d hd => made d (List.mem_cons_of_mem c hd)
    rw [layout, List.flatMap_cons, Layout.supply_append, ← layout, rest,
      Clause.supply_layout (made c List.mem_cons_self), List.flatMap_cons]

theorem aligned_layout (made : ∀ c ∈ cs, c.In V p) (hV : V.Balanced) :
    ∀ q ∈ layout p cs, q.Aligned := by
  intro q hq
  obtain ⟨c, hc, hqc⟩ := List.mem_flatMap.mp hq
  exact Clause.aligned_layout (made c hc) hV q hqc

/-- From a settled stage on, nothing is written. -/
theorem writes_eq_nil_of_settled {t : Statement} {r : Option Statement}
    (settled : t.stage.settled = true) (h : addAll (some t) cs = .ok r) :
    cs.flatMap Clause.writes = [] := by
  induction cs generalizing t with
  | nil => rfl
  | cons c cs ih =>
    obtain ⟨u, added, rest⟩ := addAll_cons_eq_ok h
    obtain ⟨stage, reached, -, rfl⟩ := add_eq_ok added
    obtain ⟨settled, values, assign⟩ := Stage.settled_next settled reached
    rw [List.flatMap_cons, Clause.writes_eq_nil values assign, ih settled rest, List.nil_append]

/-- A first clause is no WHERE. -/
theorem not_filtered_of_first {stage : Stage} {v : Clause.Verb} (h : Stage.first? v = some stage) :
    v ≠ .filtered := by
  rintro rfl
  cases h

/-- **Written values come first.**  Along a chain, all contributors that write stand before all
leaves of conditions. -/
theorem contributors_of_chain {t r : Option Statement} (h : addAll t cs = .ok r)
    (unsettled : ∀ u, t = some u → u.stage.settled = false) :
    (cs.flatMap fun c => c.writes ++ c.conditions p) =
      cs.flatMap Clause.writes ++ cs.flatMap (Clause.conditions p) := by
  induction cs generalizing t with
  | nil => rfl
  | cons c cs ih =>
    obtain ⟨u, added, rest⟩ := addAll_cons_eq_ok h
    obtain ⟨stage, reached, -, rfl⟩ := add_eq_ok added
    have notWhere : c.verb ≠ .filtered := by
      cases t with
      | none => exact not_filtered_of_first reached
      | some t => exact Stage.not_settled_next (unsettled t rfl) reached
    have later : (cs.flatMap fun c => c.writes ++ c.conditions p) =
        cs.flatMap Clause.writes ++ cs.flatMap (Clause.conditions p) := by
      cases settled : stage.settled with
      | false =>
        refine ih rest fun u hu => ?_
        cases hu
        exact settled
      | true =>
        -- nothing is written from here on, so there is nothing to move to the front
        have none := writes_eq_nil_of_settled settled rest
        rw [none, List.nil_append]
        refine List.flatMap_congr fun d hd => ?_
        rw [List.flatMap_eq_nil_iff.mp none d hd, List.nil_append]
    rw [List.flatMap_cons, List.flatMap_cons, List.flatMap_cons,
      Clause.conditions_eq_nil notWhere, later, List.append_nil, List.nil_append,
      List.append_assoc]

/-- The contributors of a statement: the items of SET or the slots of VALUES in the order of the
list, and then the leaves of WHERE from left to right. -/
theorem contributors_layout (p : Condition Filter) (built : build cs = .ok (some s)) :
    Layout.contributors (layout p cs) =
      cs.flatMap Clause.writes ++ cs.flatMap (Clause.conditions p) := by
  have each : (fun c : Clause => (c.layout p).flatMap Piece.contributors) =
      fun c => c.writes ++ c.conditions p :=
    funext fun c => Clause.contributors_layout p c
  rw [Layout.contributors, layout, List.flatMap_assoc, each]
  refine contributors_of_chain built fun u hu => ?_
  cases hu

/-- **Placeholders and parameters belong together.**  Whatever clauses a legal chain adds, over a
balanced vocabulary, the statement text has as many placeholders as the statement has parameters;
the text and the parameters are those of the layout of the clauses; the contributors are the written
values in the order of their list and then the leaves of WHERE from left to right; and the `k`-th
placeholder stands in the text of the contributor that supplies the `k`-th parameter, as the
occurrence that belongs to it. -/
theorem placeholders_match_parameters (hV : V.Balanced) (made : ∀ c ∈ cs, c.In V p)
    (built : build cs = .ok (some s)) :
    Placeholder.count s.sql = s.params.length ∧
      s.sql = Layout.spell (layout p cs) ∧
      s.params = Layout.supply (layout p cs) ∧
      Layout.contributors (layout p cs) =
        cs.flatMap Clause.writes ++ cs.flatMap (Clause.conditions p) ∧
      ∀ k < s.params.length, Layout.Matched (layout p cs) k := by
  have spelled := spell_layout made built
  have supplied := supply_layout made built
  have aligned := aligned_layout made hV
  refine ⟨?_, spelled.symm, supplied.symm, contributors_layout p built, fun k hk => ?_⟩
  · rw [← spelled, ← supplied]
    exact (Layout.aligned_spell aligned).count
  · rw [← supplied] at hk
    exact Layout.matched aligned hk

/-- An UPDATE whose column name holds a quoted `?`, with a range and a denied template in its
condition: all four parameters are matched. -/
theorem placeholders_match_parameters_update :
    let column : Column := { name := "\"A?\"" }
    let p : Condition Filter :=
      .and (.leaf (.leaf "\"A?\" BETWEEN ? AND ?" [.int 1, .int 2]))
        (.not (.leaf (.leaf "LOWER('?') = ?" [.text "x"])))
    let cs : List Clause :=
      [.update { name := "T" }, .assign [.of column none], .filtered p.filter]
    ∃ s : Statement, Vocabulary.balancedTexts.Balanced ∧
      (∀ c ∈ cs, c.In Vocabulary.balancedTexts p) ∧ build cs = .ok (some s) ∧
      s.params.length = 4 ∧ Placeholder.count s.sql = 4 ∧
      ∀ k < 4, Layout.Matched (layout p cs) k := by
  intro column p cs
  have balancedTable : Placeholder.Balanced "T" := by decide
  have balancedColumn : Placeholder.Balanced "\"A?\"" := by decide
  have balancedFragment : Placeholder.Balanced "LOWER('?') = ?" := by decide
  have accepted : Filter.template "LOWER('?') = ?" [.text "x"] =
      .ok (.leaf "LOWER('?') = ?" [.text "x"]) := rfl
  have table : Table.Named Vocabulary.balancedTexts { name := "T" } := .ofName balancedTable rfl
  have named : column.Named Vocabulary.balancedTexts := .ofName balancedColumn rfl
  have made : ∀ c ∈ cs, c.In Vocabulary.balancedTexts p := by
    intro c hc
    simp only [cs, List.mem_cons, List.not_mem_nil, or_false] at hc
    rcases hc with rfl | rfl | rfl
    · exact table
    · intro cv hcv
      rw [List.mem_singleton] at hcv
      exact ⟨column, none, named, hcv⟩
    · refine ⟨rfl, fun l hl => ?_⟩
      simp only [p, Condition.leaves, List.mem_append, List.mem_singleton] at hl
      rcases hl with rfl | rfl
      · exact .comparison (k := .range true (.int 1) (.int 2)) named trivial rfl
      · exact .template balancedFragment accepted
  have built : build cs = .ok (some _) := rfl
  obtain ⟨count, -, -, -, matched⟩ :=
    placeholders_match_parameters Vocabulary.balanced_balancedTexts made built
  exact ⟨_, Vocabulary.balanced_balancedTexts, made, built, rfl, count, matched⟩

end Statement

end BoundSql
