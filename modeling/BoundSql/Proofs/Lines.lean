import BoundSql.Proofs.Vocabulary
import BoundSql.Proofs.Language

/-!
# Lines of a text

A statement is written line by line, and a name or a template with a line end in it would break a
line in two.  This module is about texts from the side of a reader, who sees lines only.

* `rows` — the lines of a text that closes each of them; of lines written in a row these are the
  lines of each (`rows_lines`).
* `OneLine` — a text without line ends.  It is its own only line, and what is made from a
  vocabulary of such texts is such a text, apart from conditions.
* `Hanging` — a text whose lines all start with a blank, but perhaps the first.  Conditions are of
  this kind (`Condition.hanging_filter`), because AND and OR stand on indented lines of their own.
-/

namespace BoundSql

/-! ## Texts without line ends -/

/-- A text without line ends. -/
def OneLine (s : String) : Prop :=
  '\n' ∉ s.toList

instance (s : String) : Decidable (OneLine s) :=
  inferInstanceAs (Decidable ('\n' ∉ s.toList))

theorem OneLine.append {a b : String} (ha : OneLine a) (hb : OneLine b) : OneLine (a ++ b) := by
  unfold OneLine
  rw [String.toList_append, List.mem_append, not_or]
  exact ⟨ha, hb⟩

theorem compositional_oneLine : Compositional OneLine where
  fixed := by decide
  append := fun ha hb => ha.append hb

/-- As many `?` as wanted stand on one line. -/
theorem oneLine_placeholders (n : Nat) : OneLine (Comparison.placeholders n) := by
  have nothing : OneLine "" := by decide
  have comma : OneLine ", " := by decide
  refine Placeholder.intercalate_of_append nothing (fun ha hb => ha.append hb) comma fun s hs => ?_
  rw [List.eq_of_mem_replicate hs]
  decide

/-- A comparison stands on one line with the name of its column. -/
theorem Comparison.oneLine_condition {name : String} (hn : OneLine name) (k : Comparison) :
    OneLine (k.condition name) := by
  have space : OneLine " " := by decide
  cases k with
  | relation r v =>
    have operator : OneLine r.operator := by cases r <;> decide
    have slot : OneLine " ?" := by decide
    exact ((hn.append space).append operator).append slot
  | range inside low high =>
    have operator : OneLine (rangeOperator inside) := by cases inside <;> decide
    have slots : OneLine " ? AND ?" := by decide
    exact ((hn.append space).append operator).append slots
  | list inside values =>
    have operator : OneLine (listOperator inside) := by cases inside <;> decide
    have opening : OneLine " (" := by decide
    have closing : OneLine ")" := by decide
    have slots := oneLine_placeholders values.length
    exact ((((hn.append space).append operator).append opening).append slots).append closing
  | isNull null =>
    have operator : OneLine " IS NULL" ∧ OneLine " IS NOT NULL" := by decide
    cases null with
    | true => exact hn.append operator.1
    | false => exact hn.append operator.2

/-- The vocabulary of all texts without line ends. -/
def Vocabulary.oneLineTexts : Vocabulary where
  table := OneLine
  column := OneLine
  storedAlias := OneLine
  fragment := OneLine
  compared := fun _ => True

theorem Vocabulary.satisfies_oneLineTexts : oneLineTexts.Satisfies OneLine where
  table := fun _ known _ => known
  column := fun _ known _ => known
  storedAlias := fun _ _ known _ => known

theorem Filter.Leaf.oneLine {f : Filter} (h : f.Leaf .oneLineTexts) : OneLine f.condition := by
  cases h with
  | @comparison c k f named compared made =>
    rw [compare_eq_ok made]
    exact k.oneLine_condition
      (named.satisfies_name compositional_oneLine Vocabulary.satisfies_oneLineTexts)
  | @template fragment values f known made =>
    obtain ⟨-, rfl⟩ := template_eq_ok made
    exact known

/-! ## Texts whose lines are indented -/

/-- Whether a blank follows every line end. -/
def hangs : List Char → Bool
  | [] => true
  | c :: rest => (c != '\n' || rest.head? == some ' ') && hangs rest

/-- A text whose lines all start with a blank, but perhaps the first. -/
def Hanging (s : String) : Prop :=
  hangs s.toList = true

instance (s : String) : Decidable (Hanging s) :=
  inferInstanceAs (Decidable (hangs s.toList = true))

theorem hangs_append {xs ys : List Char} (hx : hangs xs = true) (hy : hangs ys = true) :
    hangs (xs ++ ys) = true := by
  induction xs with
  | nil => exact hy
  | cons c xs ih =>
    rw [hangs, Bool.and_eq_true] at hx
    have first : (c != '\n' || (xs ++ ys).head? == some ' ') = true := by
      cases xs with
      | nil => simp_all
      | cons d xs => exact hx.1
    rw [List.cons_append, hangs, first, ih hx.2, Bool.and_self]

theorem Hanging.append {a b : String} (ha : Hanging a) (hb : Hanging b) : Hanging (a ++ b) := by
  unfold Hanging
  rw [String.toList_append]
  exact hangs_append ha hb

theorem OneLine.hanging {s : String} (h : OneLine s) : Hanging s := by
  have none : ∀ cs : List Char, '\n' ∉ cs → hangs cs = true := by
    intro cs
    induction cs with
    | nil => exact fun _ => rfl
    | cons c cs ih =>
      intro absent
      obtain ⟨other, later⟩ := List.ne_and_not_mem_of_not_mem_cons absent
      rw [hangs, ih later, bne_iff_ne.mpr (Ne.symm other), Bool.true_or, Bool.and_self]
  exact none s.toList h

theorem Filter.hanging_grouped {f : Filter} (h : Hanging f.condition) : Hanging f.grouped := by
  have parentheses : Hanging "(" ∧ Hanging ")" := by decide
  rw [grouped]
  split
  · exact (parentheses.1.append h).append parentheses.2
  · exact h

/-- **The lines of a condition are indented**, but for the first, when its leaves have one line
each. -/
theorem Condition.hanging_filter {p : Condition Filter}
    (leaves : ∀ f ∈ p.leaves, OneLine f.condition) : Hanging p.filter.condition := by
  induction p with
  | leaf f => exact (leaves f List.mem_cons_self).hanging
  | and p q hp hq =>
    have separator : Hanging "\n    AND " := by decide
    have left := hp fun f hf => leaves f (List.mem_append_left _ hf)
    have right := hq fun f hf => leaves f (List.mem_append_right _ hf)
    exact (left.append separator).append (Filter.hanging_grouped right)
  | or p q hp hq =>
    have separator : Hanging "\n     OR " := by decide
    have left := hp fun f hf => leaves f (List.mem_append_left _ hf)
    have right := hq fun f hf => leaves f (List.mem_append_right _ hf)
    exact (left.append separator).append (Filter.hanging_grouped right)
  | not p hp =>
    have keyword : Hanging "NOT " := by decide
    exact keyword.append (Filter.hanging_grouped (hp leaves))

/-! ## Reading lines -/

/-- The lines of a text, with a last one behind the last line end. -/
def splitLines (s : String) : List String :=
  (s.toList.splitOn '\n').map String.ofList

/-- The lines of a text that closes each of them. -/
def rows (s : String) : List String :=
  (splitLines s).dropLast

theorem splitLines_ne_nil (s : String) : splitLines s ≠ [] := by
  unfold splitLines
  simp

/-- A text without line ends is its own only line. -/
theorem OneLine.splitLines_eq {s : String} (h : OneLine s) : splitLines s = [s] := by
  unfold splitLines
  rw [List.splitOn_eq_singleton h, List.map_singleton, String.ofList_toList]

/-- Lines are told apart at every line end. -/
theorem splitLines_append (a b : String) :
    splitLines (a ++ "\n" ++ b) = splitLines a ++ splitLines b := by
  have text : (a ++ "\n" ++ b).toList = a.toList ++ '\n' :: b.toList := by
    simp [String.toList_append]
  unfold splitLines
  rw [text, List.splitOn_append_cons_self, List.map_append]

/-- **What is read of written lines** is the lines of each. -/
theorem rows_lines (ls : List String) : rows (lines ls) = ls.flatMap splitLines := by
  induction ls with
  | nil => rfl
  | cons l ls ih =>
    rw [lines_cons, rows, splitLines_append, List.dropLast_append_of_ne_nil (splitLines_ne_nil _),
      List.flatMap_cons, ← ih, rows]

/-- Lines put together again give the text. -/
theorem intercalate_splitLines (s : String) : String.intercalate "\n" (splitLines s) = s := by
  have lineEnd : "\n".toList = ['\n'] := by decide
  have same : (splitLines s).map String.toList = s.toList.splitOn '\n' := by
    unfold splitLines
    simp
  rw [← String.toList_inj, String.toList_intercalate, lineEnd, same, List.intercalate_splitOn]

/-- Whether a line starts with a blank. -/
def isIndented (l : String) : Bool :=
  l.toList.head? == some ' '

/-- A line that is not empty keeps its first character when the text is split. -/
theorem exists_splitOn_cons {c : Char} (other : c ≠ '\n') (cs : List Char) :
    ∃ first more, (c :: cs).splitOn '\n' = (c :: first) :: more ∧
      cs.splitOn '\n' = first :: more := by
  obtain ⟨first, more, split⟩ := List.exists_cons_of_ne_nil (List.splitOn_ne_nil '\n' cs)
  refine ⟨first, more, ?_, split⟩
  rw [List.splitOn_cons_eq_if_modifyHead, beq_false_of_ne other, split]
  rfl

/-- Behind a line end that a blank follows, a line starts with a blank. -/
theorem head?_of_mem_tail_splitOn {cs : List Char} (h : hangs cs = true) :
    ∀ l ∈ (cs.splitOn '\n').tail, l.head? = some ' ' := by
  induction cs with
  | nil => simp
  | cons c cs ih =>
    rw [hangs, Bool.and_eq_true] at h
    by_cases lineEnd : c = '\n'
    · have blank : cs.head? = some ' ' := by simpa [lineEnd] using h.1
      obtain ⟨cs, rfl⟩ : ∃ more, cs = ' ' :: more := List.head?_eq_some_iff.mp blank
      obtain ⟨first, more, split, -⟩ := exists_splitOn_cons (c := ' ') (by decide) cs
      have later := ih h.2
      rw [split, List.tail_cons] at later
      subst lineEnd
      rw [List.splitOn_cons_eq_if_modifyHead, beq_self_eq_true, if_pos rfl, List.tail_cons, split]
      exact List.forall_mem_cons.mpr ⟨rfl, later⟩
    · obtain ⟨first, more, split, rest⟩ := exists_splitOn_cons lineEnd cs
      have later := ih h.2
      rw [rest] at later
      rw [split]
      exact later

/-- **The lines of an indented text are indented**, when its first line is. -/
theorem Hanging.isIndented_of_mem {s : String} (h : Hanging s) (margin : isIndented s = true) :
    ∀ l ∈ splitLines s, isIndented l = true := by
  have blank : s.toList.head? = some ' ' := by simpa [isIndented] using margin
  obtain ⟨cs, text⟩ : ∃ cs, s.toList = ' ' :: cs := List.head?_eq_some_iff.mp blank
  obtain ⟨first, more, split, -⟩ := exists_splitOn_cons (c := ' ') (by decide) cs
  have later := head?_of_mem_tail_splitOn h
  rw [text, split, List.tail_cons] at later
  intro l hl
  unfold splitLines at hl
  rw [text, split] at hl
  obtain ⟨row, inside, rfl⟩ := List.mem_map.mp hl
  unfold isIndented
  rw [String.toList_ofList, beq_iff_eq]
  rcases List.mem_cons.mp inside with rfl | inside
  · rfl
  · exact later row inside

end BoundSql
