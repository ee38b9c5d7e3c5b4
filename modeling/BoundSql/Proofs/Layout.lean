import BoundSql.Filter
import BoundSql.Proofs.Placeholder
import BoundSql.Statement.Param

/-!
# Layouts

A layout takes a statement text apart into pieces: fixed text, which supplies no parameter, and the
texts of contributors, which do.  The contributors are the items of SET, the slots of VALUES, and
the leaves of the filter of WHERE.

## Main definitions

* `Contributor`, `Piece` — the pieces, each with its text and its parameters;
* `Layout.spell`, `Layout.supply`, `Layout.contributors` — what pieces in a row amount to;
* `Layout.Matched` — the `k`-th placeholder of a text stands in the contributor that supplies the
  `k`-th parameter, and has the same rank among its placeholders as the parameter among its
  parameters.

## Main statement

* `Layout.matched` — in a layout of aligned pieces, every placeholder is matched.
-/

namespace BoundSql

/-- What supplies parameters to a statement. -/
inductive Contributor where
  /-- An item of SET. -/
  | assignment (cv : ColumnValue)
  /-- A slot of VALUES. -/
  | slot (cv : ColumnValue)
  /-- A leaf of the filter of WHERE. -/
  | condition (f : Filter)

namespace Contributor

/-- The text that a contributor emits. -/
def text : Contributor → String
  | .assignment cv => cv.name ++ " = ?"
  | .slot _ => "?"
  | .condition f => f.condition

/-- The parameters that a contributor supplies. -/
def params : Contributor → List Param
  | .assignment cv | .slot cv => [cv.param]
  | .condition f => f.params.map .value

end Contributor

/-- A piece of a statement text. -/
inductive Piece where
  | fixed (text : String)
  | part (c : Contributor)

namespace Piece

def text : Piece → String
  | .fixed s => s
  | .part c => c.text

def params : Piece → List Param
  | .fixed _ => []
  | .part c => c.params

/-- The contributor of a piece; fixed text has none. -/
def contributors : Piece → List Contributor
  | .fixed _ => []
  | .part c => [c]

/-- The text of the piece is aligned with its parameters. -/
def Aligned (q : Piece) : Prop :=
  Placeholder.Aligned q.text q.params.length

instance (q : Piece) : Decidable q.Aligned :=
  inferInstanceAs (Decidable (Placeholder.Aligned _ _))

end Piece

namespace Layout

/-! ## Pieces in a row -/

/-- The text of the pieces. -/
def spell (ps : List Piece) : String :=
  String.join (ps.map Piece.text)

/-- The parameters of the pieces. -/
def supply (ps : List Piece) : List Param :=
  ps.flatMap Piece.params

/-- The contributors among the pieces. -/
def contributors (ps : List Piece) : List Contributor :=
  ps.flatMap Piece.contributors

theorem spell_cons (q : Piece) (ps : List Piece) : spell (q :: ps) = q.text ++ spell ps :=
  String.join_cons

theorem spell_singleton (q : Piece) : spell [q] = q.text := by
  rw [spell_cons, spell, List.map_nil, String.join_nil, String.append_empty]

theorem spell_append (ps qs : List Piece) : spell (ps ++ qs) = spell ps ++ spell qs := by
  rw [spell, List.map_append, String.join_append, spell, spell]

theorem supply_append (ps qs : List Piece) : supply (ps ++ qs) = supply ps ++ supply qs :=
  List.flatMap_append

/-- All parameters come from the contributors. -/
theorem supply_eq_flatMap_contributors (ps : List Piece) :
    supply ps = (contributors ps).flatMap Contributor.params := by
  have each (q : Piece) : q.contributors.flatMap Contributor.params = q.params := by
    cases q with
    | fixed s => rfl
    | part c => exact List.append_nil _
  rw [contributors, List.flatMap_assoc, funext each]
  rfl

/-- Pieces that are aligned spell a text that is aligned with all their parameters. -/
theorem aligned_spell {ps : List Piece} (h : ∀ q ∈ ps, q.Aligned) :
    Placeholder.Aligned (spell ps) (supply ps).length := by
  induction ps with
  | nil => decide
  | cons q ps ih =>
    have first : q.Aligned := h q List.mem_cons_self
    have rest := ih fun r hr => h r (List.mem_cons_of_mem q hr)
    rw [spell_cons, supply, List.flatMap_cons, List.length_append]
    exact first.append rest

/-! ## Matching -/

/-- The `k`-th placeholder and the `k`-th parameter belong together: they come from one contributor
`c`, which stands between the pieces `before` and `after`; the parameter is the `j`-th of `c`, and
the placeholder is the `j`-th in the text of `c`. -/
def Matched (ps : List Piece) (k : Nat) : Prop :=
  ∃ (before : List Piece) (c : Contributor) (after : List Piece) (j m : Nat),
    ps = before ++ .part c :: after ∧
      k = (supply before).length + j ∧
      j < c.params.length ∧ (supply ps)[k]? = c.params[j]? ∧
      (Placeholder.positions c.text)[j]? = some m ∧
      (Placeholder.positions (spell ps))[k]? = some ((spell before).length + m)

/-- A piece in front moves a match to the right. -/
theorem Matched.cons {q : Piece} {ps : List Piece} {k : Nat} (hq : q.Aligned)
    (h : Matched ps k) : Matched (q :: ps) (q.params.length + k) := by
  obtain ⟨before, c, after, j, m, rfl, rank, inside, same, local_, global⟩ := h
  refine ⟨q :: before, c, after, j, m, rfl, ?_, inside, ?_, local_, ?_⟩
  · rw [supply, List.flatMap_cons, List.length_append, ← supply, rank, Nat.add_assoc]
  · rw [supply, List.flatMap_cons, ← supply,
      List.getElem?_append_right (Nat.le_add_right _ _), Nat.add_sub_cancel_left, same]
  · have count : (Placeholder.positions q.text).length = q.params.length := by
      rw [Placeholder.length_positions, hq.count]
    rw [spell_cons, Placeholder.positions_append hq.balanced,
      List.getElem?_append_right (by rw [count]; exact Nat.le_add_right _ _), count,
      Nat.add_sub_cancel_left, List.getElem?_map, global, Option.map_some, spell_cons,
      String.length_append]
    congr 1
    omega

/-- A contributor in front is matched in all its parameters. -/
theorem matched_head {c : Contributor} {ps : List Piece} {j : Nat}
    (hc : (Piece.part c).Aligned) (hj : j < c.params.length) : Matched (.part c :: ps) j := by
  have count : (Placeholder.positions c.text).length = c.params.length := by
    rw [Placeholder.length_positions]
    exact hc.count
  have hm : j < (Placeholder.positions c.text).length := by rw [count]; exact hj
  refine ⟨[], c, ps, j, (Placeholder.positions c.text)[j], rfl, ?_, hj, ?_,
    List.getElem?_eq_getElem hm, ?_⟩
  · rw [supply, List.flatMap_nil, List.length_nil, Nat.zero_add]
  · rw [supply, List.flatMap_cons, ← supply]
    exact List.getElem?_append_left hj
  · rw [spell_cons, Placeholder.positions_append hc.balanced, Piece.text,
      List.getElem?_append_left hm, List.getElem?_eq_getElem hm]
    exact congrArg some (Nat.zero_add _).symm

/-- **Every placeholder is matched** in a layout of aligned pieces. -/
theorem matched {ps : List Piece} (h : ∀ q ∈ ps, q.Aligned) {k : Nat}
    (hk : k < (supply ps).length) : Matched ps k := by
  induction ps generalizing k with
  | nil => exact absurd hk (Nat.not_lt_zero k)
  | cons q ps ih =>
    have first : q.Aligned := h q List.mem_cons_self
    by_cases inFirst : k < q.params.length
    · cases q with
      | fixed s => exact absurd inFirst (Nat.not_lt_zero k)
      | part c => exact matched_head first inFirst
    · rw [supply, List.flatMap_cons, List.length_append, ← supply] at hk
      have later : k = q.params.length + (k - q.params.length) := by omega
      rw [later]
      exact (ih (fun r hr => h r (List.mem_cons_of_mem q hr)) (by omega)).cons first

/-! ## Joining -/

/-- The pieces of one contributor each. -/
def parts {α : Type} (f : α → Contributor) (items : List α) : List (List Piece) :=
  items.map fun x => [.part (f x)]

theorem spell_parts {α : Type} (f : α → Contributor) (items : List α) :
    (parts f items).map spell = items.map fun x => (f x).text := by
  rw [parts, List.map_map]
  exact List.map_congr_left fun x _ => spell_singleton _

theorem contributors_parts {α : Type} (f : α → Contributor) (items : List α) :
    (parts f items).flatMap contributors = items.map f := by
  rw [parts, List.flatMap_map, List.map_eq_flatMap]
  rfl

/-- The pieces of aligned contributors are aligned. -/
theorem aligned_parts {α : Type} {f : α → Contributor} {items : List α}
    (h : ∀ x ∈ items, (Piece.part (f x)).Aligned) : ∀ ps ∈ parts f items, ∀ q ∈ ps, q.Aligned := by
  intro ps hps q hq
  obtain ⟨x, hx, rfl⟩ := List.mem_map.mp hps
  rw [List.mem_singleton] at hq
  subst hq
  exact h x hx

/-- Items with fixed text between them. -/
def joined (separator : String) (items : List (List Piece)) : List Piece :=
  List.intercalate [.fixed separator] items

theorem spell_joined (separator : String) (items : List (List Piece)) :
    spell (joined separator items) = String.intercalate separator (items.map spell) := by
  induction items with
  | nil => rfl
  | cons x items ih =>
    cases items with
    | nil =>
      rw [joined, List.intercalate_singleton, List.map_cons, List.map_nil,
        String.intercalate_singleton]
    | cons y items =>
      rw [joined, List.intercalate_cons_cons, ← joined, spell_append, spell_append, ih,
        spell_singleton, Piece.text]
      simp only [List.map_cons, String.intercalate_cons_cons]

/-- Whatever fixed text has nothing of is collected from the items. -/
theorem flatMap_joined {β : Type} {g : Piece → List β} (hg : ∀ s, g (.fixed s) = [])
    (separator : String) (items : List (List Piece)) :
    (joined separator items).flatMap g = items.flatMap fun x => x.flatMap g := by
  induction items with
  | nil => rfl
  | cons x items ih =>
    cases items with
    | nil =>
      rw [joined, List.intercalate_singleton, List.flatMap_cons, List.flatMap_nil,
        List.append_nil]
    | cons y items =>
      rw [joined, List.intercalate_cons_cons, ← joined, List.flatMap_append, List.flatMap_append,
        ih]
      simp only [List.flatMap_cons, List.flatMap_nil, hg, List.append_nil]

/-- A piece of joined items is a separator or a piece of one of them. -/
theorem mem_joined {separator : String} {items : List (List Piece)} {q : Piece}
    (h : q ∈ joined separator items) : q = .fixed separator ∨ ∃ x ∈ items, q ∈ x := by
  induction items with
  | nil => cases h
  | cons x items ih =>
    cases items with
    | nil =>
      rw [joined, List.intercalate_singleton] at h
      exact .inr ⟨x, List.mem_cons_self, h⟩
    | cons y items =>
      rw [joined, List.intercalate_cons_cons, ← joined, List.mem_append, List.mem_append,
        List.mem_singleton] at h
      rcases h with (inFirst | isSeparator) | later
      · exact .inr ⟨x, List.mem_cons_self, inFirst⟩
      · exact .inl isSeparator
      · rcases ih later with isSeparator | ⟨z, hz, inLater⟩
        · exact .inl isSeparator
        · exact .inr ⟨z, List.mem_cons_of_mem x hz, inLater⟩

end Layout

end BoundSql
