import BoundSql.Proofs.Alignment

/-!
# What the checks of names, aliases and fragments are worth

Every name, alias and fragment is checked by itself: scanned from outside quotes, it must have no
placeholder, or as many as it has values.  The check does not ask where the scan ends.  An accepted
text that leaves a quote open turns the fixed text behind it inside out, and hides the placeholders
there.

`Vocabulary.aligned_iff_balanced` draws the exact line.  Take any vocabulary of accepted texts that
has an ordinary table name and an ordinary column name.  Everything that can be made from it is
aligned, filters as well as statements, if and only if all its texts are balanced.

From right to left this is alignment over a balanced vocabulary.  From left to right, each place has
a shortest chain that an unbalanced text breaks: UPDATE for the names of tables and columns, SELECT
for aliases, and an AND for fragments.
-/

namespace BoundSql

namespace Name

/-- A name that is accepted and has no quotes. -/
structure Ordinary (name : String) : Prop where
  accepted : Accepted name
  quoteFree : Placeholder.QuoteFree name

theorem Ordinary.neutral {name : String} (h : Ordinary name) : Placeholder.Neutral name :=
  ⟨h.quoteFree.balanced, h.accepted.count⟩

end Name

namespace Vocabulary

/-- Every text of the vocabulary is accepted in its place. -/
structure Accepted (V : Vocabulary) : Prop where
  table : ∀ s, V.table s → Name.Accepted s
  column : ∀ s, V.column s → Name.Accepted s
  storedAlias : ∀ s, V.storedAlias s → ∃ given, Name.checkAlias given = .ok s
  fragment : ∀ s, V.fragment s → Text.allBlank s = false

/-- Every filter and every statement that can be made from the vocabulary has as many placeholders
as parameters. -/
structure Aligned (V : Vocabulary) : Prop where
  filter : ∀ p : Condition Filter, (∀ f ∈ p.leaves, f.Leaf V) →
    Placeholder.count p.filter.condition = p.filter.params.length
  statement : ∀ (p : Condition Filter) (cs : List Clause) (s : Statement),
    (∀ c ∈ cs, c.In V p) → Statement.build cs = .ok (some s) →
      Placeholder.count s.sql = s.params.length

end Vocabulary

variable {V : Vocabulary}

/-! ## Making things from accepted names -/

theorem Table.named_of_accepted {name : String} (known : V.table name) (h : Name.Accepted name) :
    Table.Named V { name } := by
  rcases h with h | h
  · exact .ofName known (by rw [ofName, h])
  · exact .ofFixedName known (by rw [ofFixedName, h])

theorem Column.named_of_accepted {name : String} (known : V.column name)
    (h : Name.Accepted name) : Column.Named V { name } := by
  rcases h with h | h
  · have made : ofName name .null = .ok { name } := by rw [ofName, h]
    exact .ofName known made
  · have made : ofFixedName name .null = .ok { name } := by rw [ofFixedName, h]
    exact .ofFixedName known made

theorem Table.named_under_alias {name given a : String} (known : V.table name)
    (h : Name.Accepted name) (accepted : Name.checkAlias given = .ok a) :
    Table.Named V { name, alias? := some a } :=
  .withAlias (named_of_accepted known h) (by rw [withAlias, accepted])

/-! ## Balanced texts are enough -/

/-- A filter over a balanced vocabulary is aligned. -/
theorem Condition.aligned_filter {p : Condition Filter} (leaves : ∀ f ∈ p.leaves, f.Leaf V)
    (hV : V.Balanced) : Placeholder.Aligned p.filter.condition p.filter.params.length := by
  have supplied : (Layout.supply p.layout).length = p.filter.params.length := by
    rw [Layout.supply_eq_flatMap_contributors, contributors_layout, List.flatMap_map,
      params_filter, List.length_flatMap, List.length_flatMap]
    exact congrArg List.sum (List.map_congr_left fun f _ => List.length_map _)
  rw [← spell_layout fun f hf => (leaves f hf).composite, ← supplied]
  exact Layout.aligned_spell (aligned_layout leaves hV)

theorem Vocabulary.Balanced.aligned (hV : V.Balanced) : V.Aligned where
  filter := fun _ leaves => (Condition.aligned_filter leaves hV).count
  statement := fun p cs s made built => by
    have spelled := Statement.spell_layout made built
    have supplied := Statement.supply_layout made built
    rw [← spelled, ← supplied]
    exact (Layout.aligned_spell (Statement.aligned_layout made hV)).count

/-! ## Unbalanced texts are too much -/

namespace Clause

/-- The text of a keyword line with one item. -/
theorem block_singleton (keyword item : String) :
    block keyword [item] = keyword ++ "\n" ++ indent ++ item ++ "\n" := by
  rw [block, itemLines, String.intercalate_singleton]
  simp only [String.append_assoc]

theorem quoteFree_block {keyword item : String} (hk : Placeholder.QuoteFree keyword)
    (hi : Placeholder.QuoteFree item) : Placeholder.QuoteFree (block keyword [item]) := by
  have newline : Placeholder.QuoteFree "\n" := by decide
  have margin : Placeholder.QuoteFree indent := by decide
  rw [block_singleton]
  exact (((hk.append newline).append margin).append hi).append newline

end Clause

/-- A comparison on a column. -/
def Filter.equalTrue (column : String) : Filter :=
  .leaf ((Comparison.relation .equal (.bool true)).condition column) [.bool true]

theorem Filter.leaf_equalTrue {column : String} (known : V.column column)
    (h : Name.Accepted column) (compared : V.compared column) : (equalTrue column).Leaf V :=
  .comparison (c := { name := column }) (k := .relation .equal (.bool true))
    (Column.named_of_accepted known h) compared rfl

theorem Filter.quoteFree_equalTrue {column : String} (h : Placeholder.QuoteFree column) :
    Placeholder.QuoteFree (equalTrue column).condition := by
  have space : Placeholder.QuoteFree " " := by decide
  have operator : Placeholder.QuoteFree "=" := by decide
  have slot : Placeholder.QuoteFree " ?" := by decide
  exact ((h.append space).append operator).append slot

namespace Vocabulary

variable {table column : String}

/-- The text of an UPDATE of one column. -/
def updateText (table column : String) : String :=
  Clause.block "UPDATE" [table] ++ Clause.block "SET" [column ++ " = ?"]

/-- The text of a SELECT with a table under an alias and a condition on one column. -/
def selectText (table storedAlias column : String) : String :=
  Clause.block "SELECT" [column] ++
    (Clause.block "FROM" [table ++ " AS " ++ storedAlias] ++
      Clause.block "WHERE" [(Filter.equalTrue column).condition])

/-- If all is aligned, an UPDATE of one column has its one placeholder. -/
theorem Aligned.update (h : V.Aligned) (ht : V.table table) (ta : Name.Accepted table)
    (hc : V.column column) (ca : Name.Accepted column) :
    Placeholder.count (updateText table column) = 1 := by
  let cs : List Clause := [.update { name := table }, .assign [.of { name := column } none]]
  have made : ∀ c ∈ cs, c.In V (.leaf (.equalTrue column)) := by
    intro c mem
    simp only [cs, List.mem_cons, List.not_mem_nil, or_false] at mem
    rcases mem with rfl | rfl
    · exact Table.named_of_accepted ht ta
    · intro cv hcv
      rw [List.mem_singleton] at hcv
      exact ⟨{ name := column }, none, Column.named_of_accepted hc ca, hcv⟩
  have built : Statement.build cs = .ok (some _) := rfl
  have text : String.join (cs.map Clause.text) = updateText table column := by
    simp only [cs, List.map_cons, List.map_nil, String.join_cons, String.join_nil,
      String.append_empty]
    rfl
  have count := h.statement _ cs _ made built
  rwa [(Statement.build_eq_ok built).1, text] at count

/-- If all is aligned, a SELECT with one comparison has its one placeholder. -/
theorem Aligned.select {given storedAlias : String} (h : V.Aligned) (ht : V.table table)
    (ta : Name.Accepted table) (hs : V.storedAlias storedAlias)
    (sa : Name.checkAlias given = .ok storedAlias) (hc : V.column column)
    (ca : Name.Accepted column) (compared : V.compared column) :
    Placeholder.count (selectText table storedAlias column) = 1 := by
  let p : Condition Filter := .leaf (.equalTrue column)
  let t : Table := { name := table, alias? := some storedAlias }
  let cs : List Clause := [.select [{ name := column }], .fromTables [t], .filtered p.filter]
  have named : Column.Named V { name := column } := Column.named_of_accepted hc ca
  have made : ∀ c ∈ cs, c.In V p := by
    intro c mem
    simp only [cs, List.mem_cons, List.not_mem_nil, or_false] at mem
    rcases mem with rfl | rfl | rfl
    · intro c hc
      rw [List.mem_singleton] at hc
      subst hc
      exact ⟨named, fun _ none => nomatch none⟩
    · intro u hu
      rw [List.mem_singleton] at hu
      subst hu
      refine ⟨Table.named_under_alias ht ta sa, fun b hb => ?_⟩
      cases hb
      exact hs
    · refine ⟨rfl, fun l hl => ?_⟩
      rw [List.mem_singleton.mp hl]
      exact Filter.leaf_equalTrue hc ca compared
  have built : Statement.build cs = .ok (some _) := rfl
  have text : String.join (cs.map Clause.text) = selectText table storedAlias column := by
    simp only [cs, List.map_cons, List.map_nil, String.join_cons, String.join_nil,
      String.append_empty]
    rfl
  have count := h.statement p cs _ made built
  rwa [(Statement.build_eq_ok built).1, text] at count

/-- If all is aligned, a fragment and a comparison have one placeholder more than the fragment. -/
theorem Aligned.fragment {fragment : String} (h : V.Aligned) (hf : V.fragment fragment)
    (fa : Text.allBlank fragment = false) (hc : V.column column) (ca : Name.Accepted column)
    (compared : V.compared column) :
    Placeholder.count (fragment ++ "\n    AND " ++ (Filter.equalTrue column).condition) =
      Placeholder.count fragment + 1 := by
  let values : List Value := List.replicate (Placeholder.count fragment) (.bool true)
  let p : Condition Filter := .and (.leaf (.leaf fragment values)) (.leaf (.equalTrue column))
  have length : values.length = Placeholder.count fragment := List.length_replicate
  have accepted : Filter.template fragment values = .ok (.leaf fragment values) := by
    rw [Filter.template, fa, length]
    simp
  have leaves : ∀ f ∈ p.leaves, f.Leaf V := by
    intro f mem
    simp only [p, Condition.leaves, List.mem_append, List.mem_singleton] at mem
    rcases mem with rfl | rfl
    · exact .template hf accepted
    · exact Filter.leaf_equalTrue hc ca compared
  have params : p.filter.params.length = Placeholder.count fragment + 1 := by
    rw [← length]
    exact List.length_append
  rw [← params]
  exact h.filter p leaves

/-! ### No place tolerates an unbalanced text -/

theorem Aligned.balanced_table {s : String} (h : V.Aligned) (hs : V.table s)
    (sa : Name.Accepted s) (hc : V.column column) (ordinary : Name.Ordinary column) :
    Placeholder.Balanced s := by
  by_contra unbalanced
  have equation : Placeholder.QuoteFree " = ?" := by decide
  have newline : Placeholder.QuoteFree "\n" := by decide
  have set : Placeholder.QuoteFree (Clause.block "SET" [column ++ " = ?"]) :=
    Clause.quoteFree_block (by decide) (ordinary.quoteFree.append equation)
  have opening : Placeholder.Neutral ("UPDATE" ++ "\n" ++ Clause.indent) := by decide
  have text : updateText s column = "UPDATE" ++ "\n" ++ Clause.indent ++ s ++
      ("\n" ++ Clause.block "SET" [column ++ " = ?"]) := by
    rw [updateText, Clause.block_singleton "UPDATE", String.append_assoc]
  have seen := h.update hs sa hc ordinary.accepted
  rw [text, Placeholder.count_of_not_balanced opening unbalanced (newline.append set),
    sa.count] at seen
  cases seen

theorem Aligned.balanced_column {s : String} (h : V.Aligned) (hs : V.column s)
    (sa : Name.Accepted s) (ht : V.table table) (ordinary : Name.Ordinary table) :
    Placeholder.Balanced s := by
  by_contra unbalanced
  have rest : Placeholder.QuoteFree (" = ?" ++ "\n") := by decide
  have update : Placeholder.Neutral (Clause.block "UPDATE" [table]) :=
    Clause.neutral_block (by decide) (by simpa using ordinary.neutral)
  have opening : Placeholder.Neutral ("SET" ++ "\n" ++ Clause.indent) := by decide
  have text : updateText table s = Clause.block "UPDATE" [table] ++
      ("SET" ++ "\n" ++ Clause.indent) ++ s ++ (" = ?" ++ "\n") := by
    rw [updateText, Clause.block_singleton "SET"]
    simp only [String.append_assoc]
  have seen := h.update ht ordinary.accepted hs sa
  rw [text, Placeholder.count_of_not_balanced (update.append opening) unbalanced rest,
    sa.count] at seen
  cases seen

theorem Aligned.balanced_storedAlias {given s : String} (h : V.Aligned) (hs : V.storedAlias s)
    (sa : Name.checkAlias given = .ok s) (ht : V.table table)
    (ordinaryTable : Name.Ordinary table) (hc : V.column column)
    (ordinaryColumn : Name.Ordinary column) (compared : V.compared column) :
    Placeholder.Balanced s := by
  by_contra unbalanced
  have newline : Placeholder.QuoteFree "\n" := by decide
  have condition : Placeholder.QuoteFree
      (Clause.block "WHERE" [(Filter.equalTrue column).condition]) :=
    Clause.quoteFree_block (by decide) (Filter.quoteFree_equalTrue ordinaryColumn.quoteFree)
  have select : Placeholder.Neutral (Clause.block "SELECT" [column]) :=
    Clause.neutral_block (by decide) (by simpa using ordinaryColumn.neutral)
  have opening : Placeholder.Neutral ("FROM" ++ "\n" ++ Clause.indent) := by decide
  have keyword : Placeholder.Neutral " AS " := by decide
  have text : selectText table s column =
      Clause.block "SELECT" [column] ++ ("FROM" ++ "\n" ++ Clause.indent ++ (table ++ " AS ")) ++
        s ++ ("\n" ++ Clause.block "WHERE" [(Filter.equalTrue column).condition]) := by
    rw [selectText, Clause.block_singleton "FROM"]
    simp only [String.append_assoc]
  have before := select.append (opening.append (ordinaryTable.neutral.append keyword))
  have seen := h.select ht ordinaryTable.accepted hs sa hc ordinaryColumn.accepted compared
  rw [text, Placeholder.count_of_not_balanced before unbalanced (newline.append condition),
    Name.count_of_checkAlias sa] at seen
  cases seen

theorem Aligned.balanced_fragment {s : String} (h : V.Aligned) (hs : V.fragment s)
    (sa : Text.allBlank s = false) (hc : V.column column) (ordinary : Name.Ordinary column)
    (compared : V.compared column) : Placeholder.Balanced s := by
  by_contra unbalanced
  have nothing : Placeholder.Neutral "" := by decide
  have separator : Placeholder.QuoteFree "\n    AND " := by decide
  have hidden := Placeholder.count_of_not_balanced nothing unbalanced
    (separator.append (Filter.quoteFree_equalTrue ordinary.quoteFree))
  have seen := h.fragment hs sa hc ordinary.accepted compared
  rw [String.empty_append] at hidden
  rw [String.append_assoc, hidden] at seen
  omega

/-- **What the checks are worth.**  Over a vocabulary of accepted texts with an ordinary table name
and an ordinary column name, where comparisons are made on the columns with balanced names,
everything is aligned if and only if every text is balanced. -/
theorem aligned_iff_balanced (accepted : V.Accepted) (ht : V.table table)
    (ordinaryTable : Name.Ordinary table) (hc : V.column column)
    (ordinaryColumn : Name.Ordinary column)
    (compared : ∀ s, V.compared s ↔ Placeholder.Balanced s) : V.Aligned ↔ V.Balanced := by
  have hcompared : V.compared column := (compared column).mpr ordinaryColumn.quoteFree.balanced
  refine ⟨fun h => ⟨fun s hs => ?_, fun s hs => ?_, fun s hs => ?_, fun s hs => ?_⟩,
    Balanced.aligned⟩
  · exact h.balanced_table hs (accepted.table s hs) hc ordinaryColumn
  · exact h.balanced_column hs (accepted.column s hs) ht ordinaryTable
  · obtain ⟨given, checked⟩ := accepted.storedAlias s hs
    exact h.balanced_storedAlias hs checked ht ordinaryTable hc ordinaryColumn hcompared
  · exact h.balanced_fragment hs (accepted.fragment s hs) hc ordinaryColumn hcompared

/-- A vocabulary of three names: one of the two tables leaves a quote open. -/
def withOpenQuote : Vocabulary where
  table := fun s => s = "T" ∨ s = "T'"
  column := fun s => s = "A"
  storedAlias := fun _ => False
  fragment := fun _ => False
  compared := Placeholder.Balanced

/-- One accepted table name with an open quote is enough to lose alignment. -/
theorem not_aligned_withOpenQuote :
    withOpenQuote.Accepted ∧ Name.Ordinary "T" ∧ Name.Ordinary "A" ∧ ¬ withOpenQuote.Aligned := by
  have accepted : withOpenQuote.Accepted := by
    refine ⟨?_, ?_, fun _ h => h.elim, fun _ h => h.elim⟩
    · rintro s (rfl | rfl)
      · exact .inl rfl
      · exact .inl rfl
    · rintro s rfl
      exact .inl rfl
  have table : Name.Ordinary "T" := ⟨.inl rfl, by decide⟩
  have column : Name.Ordinary "A" := ⟨.inl rfl, by decide⟩
  refine ⟨accepted, table, column, fun aligned => ?_⟩
  have exactly : withOpenQuote.Aligned ↔ withOpenQuote.Balanced :=
    aligned_iff_balanced accepted (.inl rfl) table rfl column fun _ => Iff.rfl
  have balanced : Placeholder.Balanced "T'" := (exactly.mp aligned).table "T'" (.inr rfl)
  exact absurd balanced (by decide)

end Vocabulary

/-- **A hidden placeholder.**  Both names are accepted, and yet the statement has a parameter and no
placeholder. -/
theorem Statement.open_quote_hides_placeholder :
    ∃ (t : Table) (c : Column) (s : Statement),
      Table.ofName "T'" = .ok t ∧ Column.ofName "A" .null = .ok c ∧
        build [.update t, .assign [.of c (some (.int 1))]] = .ok (some s) ∧
          Placeholder.count s.sql = 0 ∧ s.params.length = 1 :=
  ⟨_, _, _, rfl, rfl, rfl, by decide, rfl⟩

end BoundSql
