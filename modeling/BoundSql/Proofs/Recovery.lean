import BoundSql.Proofs.Lexer
import BoundSql.Proofs.Vocabulary

/-!
# Recovering the calls from a filter

The text and the values of a filter determine the calls that built it, leaves and values included,
when the leaves are comparisons on plain names.  The calls are recovered by three functions, each of
which undoes one thing that building does: `Lexer.tokens` cuts the text into tokens, `Reader.read`
finds the tree that they show, and `Condition.deal` hands the values out, as many to each leaf as
its text has placeholders.  A leaf by itself is a name, a blank and a phrase, and no two comparisons
with the same values have the same phrase (`Comparison.condition_inj`).
-/

namespace BoundSql

/-! ## Plain names -/

namespace Name

/-- ASCII letters, digits, `_` and `.`. -/
def isPlainChar (c : Char) : Bool :=
  c.isAlphanum || c == '_' || c == '.'

/-- A name of plain characters that is not the word NOT. -/
structure Plain (name : String) : Prop where
  /-- There is a first character. -/
  ne_empty : name ≠ ""
  /-- The word NOT at the start of a condition would be a connective. -/
  ne_not : name ≠ "NOT"
  /-- Every character is plain. -/
  all_plain : name.toList.all isPlainChar = true

theorem ne_of_isPlainChar {c d : Char} (hc : isPlainChar c = true) (hd : isPlainChar d = false) :
    c ≠ d := by
  rintro rfl
  rw [hc] at hd
  cases hd

variable {name : String}

theorem Plain.plain (h : Plain name) : ∀ c ∈ name.toList, isPlainChar c = true :=
  List.all_eq_true.mp h.all_plain

/-- A plain name has neither quotes nor placeholders. -/
theorem Plain.neutral (h : Plain name) : Placeholder.Neutral name := by
  have noQuote : Placeholder.QuoteFree name := fun c hc =>
    ⟨ne_of_isPlainChar (h.plain c hc) (by decide), ne_of_isPlainChar (h.plain c hc) (by decide)⟩
  refine ⟨noQuote.balanced, Placeholder.count_of_absent fun found => ?_⟩
  exact ne_of_isPlainChar (h.plain _ found) (by decide) rfl

/-- A plain name ends at the first blank. -/
theorem Plain.takeWhile_append (h : Plain name) (rest : List Char) :
    (name.toList ++ ' ' :: rest).takeWhile (· != ' ') = name.toList := by
  have notBlank : ∀ c ∈ name.toList, (c != ' ') = true := fun c hc =>
    bne_iff_ne.mpr (ne_of_isPlainChar (h.plain c hc) (by decide))
  rw [List.takeWhile_append_of_pos notBlank, List.takeWhile_cons_of_neg (by decide),
    List.append_nil]

/-- A plain name starts no sign: what follows its last character is a blank, so it would have to be
the word NOT. -/
theorem Plain.sign?_eq_none (h : Plain name) (rest : List Char) :
    Lexer.sign? (name.toList ++ ' ' :: rest) = none := by
  rw [Lexer.sign?, List.find?_eq_none]
  intro t known found
  obtain ⟨tail, starts⟩ := List.isPrefixOf_iff_prefix.mp found
  by_cases isNot : t = .not
  · -- both sides are a word, a blank and a rest, so the words are equal
    subst isNot
    have word := congrArg (List.takeWhile (· != ' ')) starts
    rw [h.takeWhile_append] at word
    have same : "NOT".toList = name.toList := by simpa [Token.text] using word
    exact h.ne_not (String.toList_inj.mp same).symm
  · -- the other signs start with characters that no plain name has
    have first : ∀ t ∈ Lexer.signs, t ≠ .not →
        (t.text id).toList.head?.map isPlainChar = some false := by
      decide
    obtain ⟨c, head, notPlain⟩ := Option.map_eq_some_iff.mp (first t known isNot)
    have heads := congrArg List.head? starts
    rw [List.head?_append, List.head?_append, head, Option.some_or] at heads
    cases text : name.toList with
    | nil => exact h.ne_empty (String.toList_eq_nil_iff.mp text)
    | cons d ds =>
      rw [text, List.head?_cons, Option.some_or] at heads
      have plain : isPlainChar d = true := h.plain d (text ▸ List.mem_cons_self)
      exact ne_of_isPlainChar plain notPlain (Option.some.inj heads).symm

/-- A plain name can be told from what stands after it and a blank. -/
theorem Plain.append_inj {other s t : String} (h : Plain name) (h' : Plain other)
    (same : name ++ " " ++ s = other ++ " " ++ t) : name = other ∧ s = t := by
  have names : name = other := by
    have texts := congrArg String.toList same
    simp only [String.append_assoc, String.toList_append] at texts
    have words := congrArg (List.takeWhile (· != ' ')) texts
    exact String.toList_inj.mp
      ((h.takeWhile_append _).symm.trans (words.trans (h'.takeWhile_append _)))
  subst names
  exact ⟨rfl, (String.append_right_inj _).mp same⟩

end Name

/-! ## Comparisons -/

theorem Relation.operator_injective {r s : Relation} (same : r.operator = s.operator) :
    r = s := by
  revert same
  cases r <;> cases s <;> decide

namespace Comparison

theorem rangeOperator_injective {inside inside' : Bool}
    (same : rangeOperator inside = rangeOperator inside') : inside = inside' := by
  revert same
  cases inside <;> cases inside' <;> decide

theorem listOperator_injective {inside inside' : Bool}
    (same : listOperator inside = listOperator inside') : inside = inside' := by
  revert same
  cases inside <;> cases inside' <;> decide

/-- What stands after the name of the column and a blank. -/
def phrase : Comparison → String
  | .relation r _ => r.operator ++ " ?"
  | .range inside _ _ => rangeOperator inside ++ " ? AND ?"
  | .list inside values =>
    listOperator inside ++ (" (" ++ placeholders values.length ++ ")")
  | .isNull true => "IS NULL"
  | .isNull false => "IS NOT NULL"

theorem condition_eq (name : String) (k : Comparison) :
    k.condition name = name ++ " " ++ k.phrase := by
  cases k with
  | relation r v => exact String.append_assoc
  | range inside low high => exact String.append_assoc
  | list inside values => simp only [condition, phrase, String.append_assoc]
  | isNull null =>
    cases null <;>
    · rw [phrase, String.append_assoc]
      rfl

/-- The character that a comparison ends with. -/
def closing : Comparison → Char
  | .relation .. | .range .. => '?'
  | .list .. => ')'
  | .isNull _ => 'L'

theorem getLast?_phrase (k : Comparison) : k.phrase.toList.getLast? = some k.closing := by
  cases k with
  | relation r v =>
    rw [phrase, String.toList_append, List.getLast?_append]
    rfl
  | range inside low high =>
    rw [phrase, String.toList_append, List.getLast?_append]
    rfl
  | list inside values =>
    rw [phrase, String.toList_append, String.toList_append, List.getLast?_append,
      List.getLast?_append]
    rfl
  | isNull null => cases null <;> rfl

/-- The phrase of a comparison shows what it is, up to its values: only lists end with a
parenthesis, and the others are told apart by how many values there are and by their operators. -/
theorem phrase_inj {k l : Comparison} (same : k.phrase = l.phrase) (values : k.values = l.values) :
    k = l := by
  have ends : k.closing = l.closing := by
    rw [← Option.some_inj, ← getLast?_phrase, ← getLast?_phrase, same]
  cases k with
  | relation r v =>
    cases l with
    | relation s w =>
      obtain rfl := Relation.operator_injective ((String.append_left_inj _).mp same)
      cases values
      rfl
    | range | isNull => cases values
    | list => cases ends
  | range inside low high =>
    cases l with
    | range inside' low' high' =>
      obtain rfl := rangeOperator_injective ((String.append_left_inj _).mp same)
      cases values
      rfl
    | relation | isNull => cases values
    | list => cases ends
  | list inside vs =>
    cases l with
    | list inside' ws =>
      obtain rfl : vs = ws := values
      obtain rfl := listOperator_injective ((String.append_left_inj _).mp same)
      rfl
    | relation | range | isNull => cases ends
  | isNull null =>
    cases l with
    | isNull null' =>
      have sides : null = null' := by
        revert same
        cases null <;> cases null' <;> decide
      rw [sides]
    | relation | range => cases values
    | list => cases ends

/-- A comparison on a plain name shows the name and, with its values, what is said of it. -/
theorem condition_inj {name other : String} (h : Name.Plain name) (h' : Name.Plain other)
    {k l : Comparison} (same : k.condition name = l.condition other)
    (values : k.values = l.values) : name = other ∧ k = l := by
  rw [condition_eq, condition_eq] at same
  obtain ⟨names, phrases⟩ := h.append_inj h' same
  exact ⟨names, phrase_inj phrases values⟩

end Comparison

/-! ## Leaves -/

namespace Lexer

/-- A text that opens and closes as many parentheses at any depth, without a line break. -/
def Level (s : String) : Prop :=
  ∀ depth, s.toList.foldlM deepen depth = some depth

theorem Level.append {a b : String} (ha : Level a) (hb : Level b) : Level (a ++ b) := by
  intro depth
  rw [String.toList_append, List.foldlM_append, ha depth]
  exact hb depth

/-- Only line breaks and parentheses matter to the depth. -/
theorem deepen_of_ne {c : Char} (h : c ≠ '\n' ∧ c ≠ '(' ∧ c ≠ ')') (depth : Nat) :
    deepen depth c = some depth := by
  rw [deepen, if_neg h.1, if_neg h.2.1, if_neg h.2.2]

/-- A text with neither line breaks nor parentheses. -/
def Quiet (s : String) : Prop :=
  ∀ c ∈ s.toList, c ≠ '\n' ∧ c ≠ '(' ∧ c ≠ ')'

instance (s : String) : Decidable (Quiet s) :=
  List.decidableBAll _ s.toList

/-- A quiet text is level. -/
theorem Quiet.level {s : String} (h : Quiet s) : Level s := by
  intro depth
  rw [Quiet] at h
  generalize s.toList = cs at h
  induction cs with
  | nil => rfl
  | cons c cs ih =>
    rw [List.foldlM_cons, deepen_of_ne (h c List.mem_cons_self)]
    exact ih fun d hd => h d (List.mem_cons_of_mem c hd)

/-- A level text in parentheses is level. -/
theorem Level.enclose {s : String} (h : Level s) : Level (" (" ++ s ++ ")") := by
  intro depth
  have opened : " (".toList.foldlM deepen depth = some (depth + 1) := rfl
  have closed : ")".toList.foldlM deepen (depth + 1) = some depth := rfl
  rw [String.toList_append, String.toList_append, List.foldlM_append, List.foldlM_append, opened]
  show ((s.toList.foldlM deepen (depth + 1)).bind fun d => ")".toList.foldlM deepen d) = some depth
  rw [h, Option.bind_some, closed]

/-- Placeholders with commas between them are level. -/
theorem level_placeholders (n : Nat) : Level (Comparison.placeholders n) := by
  have slot : Level "?" := Quiet.level (by decide)
  have separator : Level ", " := Quiet.level (by decide)
  refine Placeholder.intercalate_of_append (fun _ => rfl) Level.append separator ?_
  intro s hs
  rw [List.eq_of_mem_replicate hs]
  exact slot

/-- After the name of the column and a blank, a comparison is level. -/
theorem level_phrase (k : Comparison) : Level k.phrase := by
  cases k with
  | relation r v =>
    have operator : Level r.operator := Quiet.level (by cases r <;> decide)
    exact operator.append (Quiet.level (by decide))
  | range inside low high =>
    have operator : Level (Comparison.rangeOperator inside) :=
      Quiet.level (by cases inside <;> decide)
    exact operator.append (Quiet.level (by decide))
  | list inside values =>
    have operator : Level (Comparison.listOperator inside) :=
      Quiet.level (by cases inside <;> decide)
    exact operator.append (level_placeholders values.length).enclose
  | isNull null => exact Quiet.level (by cases null <;> decide)

/-- A comparison on a plain name is cut out as one leaf. -/
theorem atomic_comparison {name : String} (h : Name.Plain name) (k : Comparison) :
    Atomic (k.condition name) := by
  have quiet : Quiet name := by
    intro c hc
    refine ⟨?_, ?_, ?_⟩
    all_goals exact Name.ne_of_isPlainChar (h.plain c hc) (by decide)
  have blank : Level " " := Quiet.level (by decide)
  have whole : Level (name ++ " " ++ k.phrase) :=
    (quiet.level.append blank).append (level_phrase k)
  cases text : name.toList with
  | nil => exact absurd (String.toList_eq_nil_iff.mp text) h.ne_empty
  | cons c cs =>
    have all : (name ++ " " ++ k.phrase).toList = c :: (cs ++ ' ' :: k.phrase.toList) := by
      rw [String.toList_append, String.toList_append, text, List.append_assoc, List.cons_append]
      rfl
    refine ⟨c, cs ++ ' ' :: k.phrase.toList, by rw [k.condition_eq, all], ?_, ?_⟩
    · intro rest
      rw [List.append_assoc, List.cons_append]
      have none := h.sign?_eq_none (k.phrase.toList ++ rest)
      rwa [text, List.cons_append] at none
    · have first : deepen 0 c = some 0 := deepen_of_ne (quiet c (text ▸ List.mem_cons_self)) 0
      have closed := whole 0
      rwa [all, List.foldlM_cons, first] at closed

end Lexer

/-- The comparisons on columns with plain names. -/
def Filter.Plain (f : Filter) : Prop :=
  ∃ c k, Name.Plain c.name ∧ Filter.compare c k = .ok f

namespace Filter.Plain

variable {f : Filter}

theorem atomic (h : f.Plain) : Lexer.Atomic f.condition := by
  obtain ⟨c, k, plain, made⟩ := h
  rw [compare_eq_ok made]
  exact Lexer.atomic_comparison plain k

/-- Such a leaf has as many values as its text has placeholders. -/
theorem count (h : f.Plain) : Placeholder.count f.condition = f.params.length := by
  obtain ⟨c, k, plain, made⟩ := h
  rw [compare_eq_ok made]
  exact (k.aligned_condition plain.neutral).count

theorem composite (h : f.Plain) : f.composite = false := by
  obtain ⟨c, k, -, made⟩ := h
  exact composite_of_compare made

/-- Such a leaf compares one column, and in one way. -/
theorem unique {c d : Column} {k l : Comparison} (first : Name.Plain c.name)
    (second : Name.Plain d.name) (made : Filter.compare c k = .ok f)
    (again : Filter.compare d l = .ok f) : c.name = d.name ∧ k = l := by
  obtain rfl := compare_eq_ok made
  have same := compare_eq_ok again
  rw [leaf, leaf, Filter.mk.injEq] at same
  exact Comparison.condition_inj first second same.1 same.2.1

end Filter.Plain

/-! ## Values -/

namespace Condition

/-- Hand values out to leaves, from left to right; the second part is what is left over. -/
def deal : Condition String → List Value → Condition Filter × List Value
  | .leaf s, vs =>
    let n := Placeholder.count s
    (.leaf (Filter.leaf s (vs.take n)), vs.drop n)
  | .and p q, vs =>
    let (p, vs) := p.deal vs
    let (q, vs) := q.deal vs
    (.and p q, vs)
  | .or p q, vs =>
    let (p, vs) := p.deal vs
    let (q, vs) := q.deal vs
    (.or p q, vs)
  | .not p, vs =>
    let (p, vs) := p.deal vs
    (.not p, vs)

/-- Every leaf gets its own values back. -/
theorem deal_params (p : Condition Filter) (plain : ∀ f ∈ p.leaves, f.Plain) (rest : List Value) :
    (p.map Filter.condition).deal (p.leaves.flatMap Filter.params ++ rest) = (p, rest) := by
  induction p generalizing rest with
  | leaf f =>
    have known : f.Plain := plain f List.mem_cons_self
    have same : Filter.leaf f.condition f.params = f := by
      rw [Filter.leaf, ← known.composite]
    rw [leaves, List.flatMap_singleton, map, deal, known.count, List.take_left, List.drop_left,
      same]
  | and p q hp hq =>
    have left := hp fun f hf => plain f (List.mem_append_left _ hf)
    have right := hq fun f hf => plain f (List.mem_append_right _ hf)
    simp only [leaves, List.flatMap_append, List.append_assoc, map, deal, left, right]
  | or p q hp hq =>
    have left := hp fun f hf => plain f (List.mem_append_left _ hf)
    have right := hq fun f hf => plain f (List.mem_append_right _ hf)
    simp only [leaves, List.flatMap_append, List.append_assoc, map, deal, left, right]
  | not p hp => simp only [leaves, map, deal, hp plain]

/-! ## Calls -/

/-- The tree that a text shows to a reader for whom AND and OR bind equally and to the left, NOT
binds the one operand after it, and parentheses group. -/
def read (s : String) : Option (Condition String) :=
  Reader.read .equal (Lexer.tokens s.toList)

/-- The calls that a text and values come from. -/
def recover (s : String) (vs : List Value) : Option (Condition Filter) :=
  (read s).map fun p => (p.deal vs).1

/-- A text over plain leaves shows the tree of calls. -/
theorem read_condition (p : Condition Filter) (plain : ∀ f ∈ p.leaves, f.Plain) :
    read p.filter.condition = some (p.map Filter.condition) := by
  rw [read, condition_filter p fun f hf => (plain f hf).composite,
    Lexer.tokens_spell p fun f hf => (plain f hf).atomic, Reader.read_equal_tokens]

/-- **Nothing is lost in a filter.**  Over comparisons on plain names, the text shows the tree of
calls and the texts of its leaves, so filters with one text have one such tree; the mark tells
whether the last call is an AND or an OR; the values are those of the leaves from left to right; and
text and values together give back the calls and each leaf with its own values.  A leaf in turn says
which column it compares, and in which way. -/
theorem filter_determines_calls (p : Condition Filter) (plain : ∀ f ∈ p.leaves, f.Plain) :
    read p.filter.condition = some (p.map Filter.condition) ∧
      (∀ q : Condition Filter, (∀ f ∈ q.leaves, f.Plain) →
        q.filter.condition = p.filter.condition →
        q.map Filter.condition = p.map Filter.condition) ∧
      (p.filter.composite = true ↔ (∃ a b, p = .and a b) ∨ ∃ a b, p = .or a b) ∧
      p.filter.params = p.leaves.flatMap Filter.params ∧
      recover p.filter.condition p.filter.params = some p ∧
      ∀ f ∈ p.leaves, ∀ (c d : Column) (k l : Comparison), Name.Plain c.name → Name.Plain d.name →
        Filter.compare c k = .ok f → Filter.compare d l = .ok f → c.name = d.name ∧ k = l := by
  have shown := read_condition p plain
  refine ⟨shown, ?_, ?_, params_filter p, ?_, fun f _ c d k l => Filter.Plain.unique⟩
  · intro q plainToo same
    have shownToo := read_condition q plainToo
    rw [same, shown] at shownToo
    exact (Option.some.inj shownToo).symm
  · cases p with
    | leaf f =>
      have single : f.composite = false := (plain f List.mem_cons_self).composite
      simp [filter, single]
    | and a b => simp [filter, Filter.and, Filter.combine]
    | or a b => simp [filter, Filter.or, Filter.combine]
    | not a => simp [filter, Filter.negate]
  · have dealt := deal_params p plain []
    rw [List.append_nil] at dealt
    rw [recover, shown, Option.map_some, params_filter, dealt]

/-- A range, and not a list or a double denial. -/
def rangeAndNeither : Condition Filter :=
  .and (.leaf ⟨"A BETWEEN ? AND ?", [.int 1, .int 2], false⟩)
    (.not (.or (.leaf ⟨"T.B IN (?, ?)", [.int 3, .int 4], false⟩)
      (.not (.not (.leaf ⟨"C_1 IS NOT NULL", [], false⟩)))))

theorem recover_rangeAndNeither :
    (∀ f ∈ rangeAndNeither.leaves, f.Plain) ∧
      recover ("A BETWEEN ? AND ?\n    AND NOT (T.B IN (?, ?)\n     OR NOT NOT C_1 IS NOT NULL)")
        [.int 1, .int 2, .int 3, .int 4] = some rangeAndNeither ∧
      ∀ (d : Column) (l : Comparison), Name.Plain d.name →
        Filter.compare d l = .ok ⟨"T.B IN (?, ?)", [.int 3, .int 4], false⟩ →
        "T.B" = d.name ∧ .list true [.int 3, .int 4] = l := by
  have dotted : Name.Plain "T.B" := ⟨by decide, by decide, by decide⟩
  have plain : ∀ f ∈ rangeAndNeither.leaves, f.Plain := by
    intro f hf
    simp only [rangeAndNeither, leaves, List.cons_append, List.nil_append, List.mem_cons,
      List.not_mem_nil, or_false] at hf
    rcases hf with rfl | rfl | rfl
    · exact ⟨{ name := "A" }, .range true (.int 1) (.int 2), ⟨by decide, by decide, by decide⟩, rfl⟩
    · exact ⟨{ name := "T.B" }, .list true [.int 3, .int 4], dotted, rfl⟩
    · exact ⟨{ name := "C_1" }, .isNull false, ⟨by decide, by decide, by decide⟩, rfl⟩
  obtain ⟨-, -, -, -, recovered, compared⟩ := filter_determines_calls rangeAndNeither plain
  refine ⟨plain, recovered, fun d l named made => ?_⟩
  exact compared _ (.tail _ (.head _)) { name := "T.B" } d _ l dotted named rfl made

end Condition

end BoundSql
