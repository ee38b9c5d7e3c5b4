import BoundSql.Proofs.Placeholder
import BoundSql.Proofs.Token
import BoundSql.Statement.Clause

/-!
# Vocabularies

Names, aliases and condition fragments go into statements as the caller gives them, after a check of
each by itself.  A `Vocabulary` says which texts a caller uses in which place, and the predicates of
this module say which tables, columns, filters and clauses can be made from it, with the
constructors and operations of the library alone:

* `Table.Named`, `Column.Named` — made from names of the vocabulary by any chain of operations;
* `Table.In`, `Column.In` — moreover under no alias or one of the vocabulary;
* `Filter.Leaf` — a comparison on such a column, or a template with a fragment of the vocabulary;
* `Clause.In` — a clause over all of these; the filter of a WHERE is given by a tree of calls.

What is made is the texts of the vocabulary with fixed texts around them.  So a property that holds of
the fixed texts and passes from two texts to their concatenation (`Compositional`) holds of every
table, column and item of a list once it holds of what the checks accept from the vocabulary
(`Vocabulary.Satisfies`).  The induction over chains of operations is done once, for all such
properties (`Column.Named.satisfies_name`).

The checks see to it that no name and no stored alias has a placeholder (`Name.Accepted.count`,
`Name.count_of_checkAlias`).  They do not look for open quotes.  If every text of the vocabulary is
balanced, then whatever is made from it is aligned with its parameters.
-/

namespace BoundSql

/-- The texts in use, by the place where they stand. -/
structure Vocabulary where
  /-- Names of tables. -/
  table : String → Prop
  /-- Names of columns. -/
  column : String → Prop
  /-- Aliases as they stand in a statement. -/
  storedAlias : String → Prop
  /-- Fragments of hand-written conditions. -/
  fragment : String → Prop
  /-- Names of the columns that comparisons are made on. -/
  compared : String → Prop

/-- Every text of the vocabulary closes the quotes that it opens. -/
structure Vocabulary.Balanced (V : Vocabulary) : Prop where
  table : ∀ s, V.table s → Placeholder.Balanced s
  column : ∀ s, V.column s → Placeholder.Balanced s
  storedAlias : ∀ s, V.storedAlias s → Placeholder.Balanced s
  fragment : ∀ s, V.fragment s → Placeholder.Balanced s

/-- The vocabulary of all balanced texts. -/
def Vocabulary.balancedTexts : Vocabulary where
  table := Placeholder.Balanced
  column := Placeholder.Balanced
  storedAlias := Placeholder.Balanced
  fragment := Placeholder.Balanced
  compared := fun _ => True

theorem Vocabulary.balanced_balancedTexts : balancedTexts.Balanced where
  table := fun _ h => h
  column := fun _ h => h
  storedAlias := fun _ h => h
  fragment := fun _ h => h

variable {V : Vocabulary}

/-! ## What the checks guarantee -/

namespace Name

/-- A name that one of the two checks accepts. -/
def Accepted (name : String) : Prop :=
  fault? name = none ∨ fixedFault? name = none

/-- An accepted name has no placeholder. -/
theorem Accepted.count {name : String} (h : Accepted name) : Placeholder.count name = 0 := by
  rcases h with h | h
  · rw [fault?] at h
    split at h
    · cases h
    · split at h
      · cases h
      · split at h
        · cases h
        · next zero => exact Decidable.not_not.mp zero
  · rw [fixedFault?] at h
    split at h
    · cases h
    · split at h
      · cases h
      · next zero => exact Decidable.not_not.mp zero

/-- An alias as it is stored has no placeholder. -/
theorem count_of_checkAlias {given a : String} (h : checkAlias given = .ok a) :
    Placeholder.count a = 0 := by
  rw [checkAlias] at h
  split at h
  · cases h
  · split at h
    · cases h
    · split at h
      · cases h
      · next zero =>
        cases h
        exact Decidable.not_not.mp zero

end Name

/-! ## Properties of texts -/

/-- The fixed texts around names and aliases. -/
def fixedTexts : List String :=
  ["", " AS ", ".", "MIN(", "MAX(", "SUM(", "AVG(", "COUNT(", "DISTINCT ", "COUNT(DISTINCT ", ")",
    " ", "ASC", "DESC"]

/-- A property of texts that holds of the fixed ones and passes to concatenations. -/
structure Compositional (P : String → Prop) : Prop where
  fixed : ∀ s ∈ fixedTexts, P s
  append : ∀ {a b : String}, P a → P b → P (a ++ b)

/-- The property holds of what the checks accept from the vocabulary. -/
structure Vocabulary.Satisfies (V : Vocabulary) (P : String → Prop) : Prop where
  table : ∀ s, V.table s → Name.Accepted s → P s
  column : ∀ s, V.column s → Name.Accepted s → P s
  storedAlias : ∀ given s, V.storedAlias s → Name.checkAlias given = .ok s → P s

theorem compositional_neutral : Compositional Placeholder.Neutral where
  fixed := by decide
  append := fun ha hb => ha.append hb

/-- What is accepted from a balanced vocabulary is neutral. -/
theorem Vocabulary.Balanced.satisfies (hV : V.Balanced) : V.Satisfies Placeholder.Neutral where
  table := fun s known accepted => ⟨hV.table s known, accepted.count⟩
  column := fun s known accepted => ⟨hV.column s known, accepted.count⟩
  storedAlias := fun _ s known accepted =>
    ⟨hV.storedAlias s known, Name.count_of_checkAlias accepted⟩

variable {P : String → Prop}

/-! ## Tables -/

/-- The tables that can be made from the names of a vocabulary. -/
inductive Table.Named (V : Vocabulary) : Table → Prop where
  | ofName {name : String} {t : Table} (known : V.table name) (made : Table.ofName name = .ok t) :
      Named V t
  | ofFixedName {name : String} {t : Table} (known : V.table name)
      (made : Table.ofFixedName name = .ok t) : Named V t
  | withAlias {t u : Table} {given : String} (named : Named V t)
      (made : t.withAlias given = .ok u) : Named V u

/-- The tables that can be made from a vocabulary. -/
structure Table.In (V : Vocabulary) (t : Table) : Prop where
  named : t.Named V
  storedAlias : ∀ a, t.alias? = some a → V.storedAlias a

namespace Table

theorem ofName_eq_ok {name : String} {t : Table} (h : ofName name = .ok t) :
    Name.fault? name = none ∧ t = { name } := by
  rw [ofName] at h
  split at h
  · cases h
  · next accepted => cases h; exact ⟨accepted, rfl⟩

theorem ofFixedName_eq_ok {name : String} {t : Table} (h : ofFixedName name = .ok t) :
    Name.fixedFault? name = none ∧ t = { name } := by
  rw [ofFixedName] at h
  split at h
  · cases h
  · next accepted => cases h; exact ⟨accepted, rfl⟩

theorem withAlias_eq_ok {t u : Table} {given : String} (h : t.withAlias given = .ok u) :
    ∃ a, Name.checkAlias given = .ok a ∧ u = { t with alias? := some a } := by
  rw [withAlias] at h
  split at h
  · cases h
  · next a accepted => cases h; exact ⟨a, accepted, rfl⟩

/-- The name of a table is an accepted name of the vocabulary. -/
theorem Named.name {t : Table} (h : t.Named V) : V.table t.name ∧ Name.Accepted t.name := by
  induction h with
  | ofName known made =>
    obtain ⟨accepted, rfl⟩ := ofName_eq_ok made
    exact ⟨known, .inl accepted⟩
  | ofFixedName known made =>
    obtain ⟨accepted, rfl⟩ := ofFixedName_eq_ok made
    exact ⟨known, .inr accepted⟩
  | withAlias named made ih =>
    obtain ⟨a, -, rfl⟩ := withAlias_eq_ok made
    exact ih

/-- The alias of a table passed the check. -/
theorem Named.alias {t : Table} (h : t.Named V) {a : String} (ha : t.alias? = some a) :
    ∃ given, Name.checkAlias given = .ok a := by
  cases h with
  | ofName known made =>
    obtain ⟨-, rfl⟩ := ofName_eq_ok made
    cases ha
  | ofFixedName known made =>
    obtain ⟨-, rfl⟩ := ofFixedName_eq_ok made
    cases ha
  | withAlias named made =>
    obtain ⟨b, accepted, rfl⟩ := withAlias_eq_ok made
    cases ha
    exact ⟨_, accepted⟩

theorem Named.satisfies_name {t : Table} (h : t.Named V) (hV : V.Satisfies P) : P t.name :=
  hV.table t.name h.name.1 h.name.2

theorem In.satisfies_alias {t : Table} (h : t.In V) (hV : V.Satisfies P) {a : String}
    (ha : t.alias? = some a) : P a := by
  obtain ⟨given, accepted⟩ := h.named.alias ha
  exact hV.storedAlias given a (h.storedAlias a ha) accepted

/-- What stands before the dot of a qualified column. -/
theorem In.satisfies_qualifier {t : Table} (h : t.In V) (hV : V.Satisfies P) : P t.qualifier := by
  rw [qualifier]
  cases ha : t.alias? with
  | none => exact h.named.satisfies_name hV
  | some a => exact h.satisfies_alias hV ha

/-- A name with its alias. -/
theorem satisfies_aliased (hP : Compositional P) {name : String} {alias? : Option String}
    (hn : P name) (ha : ∀ a, alias? = some a → P a) : P (aliased name alias?) := by
  cases alias? with
  | none => exact hn
  | some a =>
    have keyword : P " AS " := hP.fixed _ (by decide)
    exact hP.append (hP.append hn keyword) (ha a rfl)

theorem In.satisfies_item {t : Table} (h : t.In V) (hP : Compositional P) (hV : V.Satisfies P) :
    P t.item :=
  satisfies_aliased hP (h.named.satisfies_name hV) fun _ ha => h.satisfies_alias hV ha

theorem Named.neutral_name {t : Table} (h : t.Named V) (hV : V.Balanced) :
    Placeholder.Neutral t.name :=
  h.satisfies_name hV.satisfies

theorem In.neutral_item {t : Table} (h : t.In V) (hV : V.Balanced) :
    Placeholder.Neutral t.item :=
  h.satisfies_item compositional_neutral hV.satisfies

end Table

/-! ## Columns -/

/-- The columns that can be made from the names of a vocabulary, by any chain of operations. -/
inductive Column.Named (V : Vocabulary) : Column → Prop where
  | ofName {name : String} {type : SqlType} {c : Column} (known : V.column name)
      (made : Column.ofName name type = .ok c) : Named V c
  | ofFixedName {name : String} {type : SqlType} {c : Column} (known : V.column name)
      (made : Column.ofFixedName name type = .ok c) : Named V c
  | apply {c d : Column} {op : Column.Operation} (named : Named V c)
      (tables : ∀ t, op = .wrap (.qualified t) → t.In V) (made : c.apply op = .ok d) : Named V d

/-- The columns that can be made from a vocabulary. -/
structure Column.In (V : Vocabulary) (c : Column) : Prop where
  named : c.Named V
  storedAlias : ∀ a, c.alias? = some a → V.storedAlias a

namespace Column

theorem ofName_eq_ok {name : String} {type : SqlType} {c : Column}
    (h : ofName name type = .ok c) : Name.fault? name = none ∧ c = { name, type } := by
  rw [ofName] at h
  split at h
  · cases h
  · next accepted => cases h; exact ⟨accepted, rfl⟩

theorem ofFixedName_eq_ok {name : String} {type : SqlType} {c : Column}
    (h : ofFixedName name type = .ok c) :
    Name.fixedFault? name = none ∧ c = { name, type } := by
  rw [ofFixedName] at h
  split at h
  · cases h
  · next accepted => cases h; exact ⟨accepted, rfl⟩

theorem withAlias_eq_ok {c d : Column} {given : String} (h : c.withAlias given = .ok d) :
    ∃ a, Name.checkAlias given = .ok a ∧ d = { c with alias? := some a } := by
  rw [withAlias] at h
  split at h
  · cases h
  · next a accepted => cases h; exact ⟨a, accepted, rfl⟩

/-- What is put around a name, if qualifiers have the property. -/
theorem satisfies_ends (hP : Compositional P) (w : Wrapper)
    (h : ∀ t, w = .qualified t → P t.qualifier) : P w.ends.1 ∧ P w.ends.2 := by
  cases w with
  | qualified t =>
    have dot : P "." := hP.fixed _ (by decide)
    have nothing : P "" := hP.fixed _ (by decide)
    exact ⟨hP.append (h t rfl) dot, nothing⟩
  | min | max | sum | avg | count | distinct | countDistinct =>
    exact ⟨hP.fixed _ (by decide), hP.fixed _ (by decide)⟩

/-- **One step of a chain.**  An operation keeps the property of the name if the qualifier that it
may add has it. -/
theorem satisfies_apply (hP : Compositional P) {c d : Column} {op : Operation} (hc : P c.name)
    (h : ∀ t, op = .wrap (.qualified t) → P t.qualifier) (made : c.apply op = .ok d) :
    P d.name := by
  cases op with
  | wrap w =>
    cases made
    obtain ⟨before, after⟩ := satisfies_ends hP w fun t ht => h t (by rw [ht])
    exact hP.append (hP.append before hc) after
  | underAlias given =>
    obtain ⟨a, -, rfl⟩ := withAlias_eq_ok made
    exact hc
  | order o =>
    cases made
    exact hc
  | copy =>
    cases made
    exact hc

/-- The name of every column made from the vocabulary has the property. -/
theorem Named.satisfies_name {c : Column} (h : c.Named V) (hP : Compositional P)
    (hV : V.Satisfies P) : P c.name := by
  induction h with
  | ofName known made =>
    obtain ⟨accepted, rfl⟩ := ofName_eq_ok made
    exact hV.column _ known (.inl accepted)
  | ofFixedName known made =>
    obtain ⟨accepted, rfl⟩ := ofFixedName_eq_ok made
    exact hV.column _ known (.inr accepted)
  | apply named tables made ih =>
    exact satisfies_apply hP ih (fun t ht => (tables t ht).satisfies_qualifier hV) made

theorem Named.neutral_name {c : Column} (h : c.Named V) (hV : V.Balanced) :
    Placeholder.Neutral c.name :=
  h.satisfies_name compositional_neutral hV.satisfies

/-- The alias of a column passed the check. -/
theorem Named.alias {c : Column} (h : c.Named V) {a : String} (ha : c.alias? = some a) :
    ∃ given, Name.checkAlias given = .ok a := by
  induction h with
  | ofName known made =>
    obtain ⟨-, rfl⟩ := ofName_eq_ok made
    cases ha
  | ofFixedName known made =>
    obtain ⟨-, rfl⟩ := ofFixedName_eq_ok made
    cases ha
  | @apply c d op named tables made ih =>
    cases op with
    | wrap w =>
      cases made
      exact ih ha
    | underAlias given =>
      obtain ⟨b, accepted, rfl⟩ := withAlias_eq_ok made
      cases ha
      exact ⟨given, accepted⟩
    | order o =>
      cases made
      exact ih ha
    | copy =>
      cases made
      exact ih ha

theorem In.satisfies_selectItem {c : Column} (h : c.In V) (hP : Compositional P)
    (hV : V.Satisfies P) : P c.selectItem := by
  refine Table.satisfies_aliased hP (h.named.satisfies_name hP hV) fun a ha => ?_
  obtain ⟨given, accepted⟩ := h.named.alias ha
  exact hV.storedAlias given a (h.storedAlias a ha) accepted

theorem Named.satisfies_orderItem {c : Column} (h : c.Named V) (hP : Compositional P)
    (hV : V.Satisfies P) : P c.orderItem := by
  rw [orderItem]
  cases c.order? with
  | none => exact h.satisfies_name hP hV
  | some o =>
    have space : P " " := hP.fixed _ (by decide)
    have keyword : P o.keyword := hP.fixed _ (by cases o <;> decide)
    exact hP.append (hP.append (h.satisfies_name hP hV) space) keyword

theorem In.neutral_selectItem {c : Column} (h : c.In V) (hV : V.Balanced) :
    Placeholder.Neutral c.selectItem :=
  h.satisfies_selectItem compositional_neutral hV.satisfies

theorem Named.neutral_orderItem {c : Column} (h : c.Named V) (hV : V.Balanced) :
    Placeholder.Neutral c.orderItem :=
  h.satisfies_orderItem compositional_neutral hV.satisfies

end Column

/-! ## Leaves of filters -/

/-- The filters that are no AND, OR or NOT, made from a vocabulary. -/
inductive Filter.Leaf (V : Vocabulary) : Filter → Prop where
  | comparison {c : Column} {k : Comparison} {f : Filter} (named : c.Named V)
      (compared : V.compared c.name) (made : Filter.compare c k = .ok f) : Leaf V f
  | template {fragment : String} {values : List Value} {f : Filter}
      (known : V.fragment fragment) (made : Filter.template fragment values = .ok f) : Leaf V f

/-- A comparison on a neutral name is aligned with its values. -/
theorem Comparison.aligned_condition {name : String} (hn : Placeholder.Neutral name)
    (k : Comparison) : Placeholder.Aligned (k.condition name) k.values.length := by
  have space : Placeholder.Neutral " " := by decide
  cases k with
  | relation r v =>
    have operator : Placeholder.Neutral r.operator := by cases r <;> decide
    have slot : Placeholder.Aligned " ?" 1 := by decide
    exact slot.prepend ((hn.append space).append operator)
  | range inside low high =>
    have operator : Placeholder.Neutral (rangeOperator inside) := by cases inside <;> decide
    have slots : Placeholder.Aligned " ? AND ?" 2 := by decide
    exact slots.prepend ((hn.append space).append operator)
  | list inside values =>
    have operator : Placeholder.Neutral (listOperator inside) := by cases inside <;> decide
    have opening : Placeholder.Neutral " (" := by decide
    have closing : Placeholder.Neutral ")" := by decide
    have slots := Placeholder.aligned_replicate values.length
    exact (slots.prepend (((hn.append space).append operator).append opening)).append closing
  | isNull null =>
    cases null with
    | true =>
      have operator : Placeholder.Neutral " IS NULL" := by decide
      exact hn.append operator
    | false =>
      have operator : Placeholder.Neutral " IS NOT NULL" := by decide
      exact hn.append operator

namespace Filter

theorem Leaf.composite {f : Filter} (h : f.Leaf V) : f.composite = false := by
  cases h with
  | comparison named compared made => rw [compare_eq_ok made, leaf]
  | template known made => rw [(template_eq_ok made).2, leaf]

/-- A leaf made from a balanced vocabulary is aligned with its values. -/
theorem Leaf.aligned {f : Filter} (h : f.Leaf V) (hV : V.Balanced) :
    Placeholder.Aligned f.condition f.params.length := by
  cases h with
  | @comparison c k f named compared made =>
    rw [compare_eq_ok made]
    exact k.aligned_condition (named.neutral_name hV)
  | @template fragment values f known made =>
    obtain ⟨count, rfl⟩ := template_eq_ok made
    exact ⟨hV.fragment fragment known, count⟩

end Filter

/-! ## Clauses -/

/-- The clauses that can be made from a vocabulary; the filter of a WHERE is the one that the calls
of `p` build. -/
def Clause.In (V : Vocabulary) (p : Condition Filter) : Clause → Prop
  | .select columns => ∀ c ∈ columns, c.In V
  | .fromTables tables => ∀ t ∈ tables, t.In V
  | .filtered f => f = p.filter ∧ ∀ l ∈ p.leaves, l.Leaf V
  | .groupBy columns | .orderBy columns => ∀ c ∈ columns, c.Named V
  | .into t | .update t | .fromTable t => t.Named V
  | .values items | .assign items =>
    ∀ cv ∈ items, ∃ (c : Column) (v : Option Value), c.Named V ∧ cv = ColumnValue.of c v
  | .insert | .delete => True

end BoundSql
