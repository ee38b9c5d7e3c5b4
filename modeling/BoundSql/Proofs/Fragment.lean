import BoundSql.Proofs.Grouping

/-!
# Fragments written by hand as operands

A template is a leaf, so it is never put in parentheses.  Its fragment may be any condition, though,
with AND, OR, NOT and parentheses of its own.  This module says what becomes of such a fragment when
the template is denied, or joined with a comparison by AND (`Filter.template_reading_agrees_iff`).

SQL sees one condition and groups it by precedence.

* `NOT` takes the first factor of the fragment.  It means the whole fragment just when the fragment
  is one factor.
* `AND` on either side takes the term of the fragment that it stands next to.  It means the whole
  fragment just when the fragment is one term, that is, has no OR outside of parentheses.

In all other cases some assignment of known truth values tells the text from the calls, as soon as
no atom occurs twice.

A fragment is laid out and spelled as its author likes, so `Token.Written` relates a text to its
tokens up to blanks and the case of letters.  The atoms are texts of any kind.
-/

namespace BoundSql

/-! ## Texts that are written by hand -/

namespace Token

variable {α : Type}

/-- The word of a token; connectives may be in any case. -/
def IsWord (atom : α → String) (word : List Char) : Token α → Prop
  | .atom a => word = (atom a).toList
  | .and => word.map Char.toUpper = ['A', 'N', 'D']
  | .or => word.map Char.toUpper = ['O', 'R']
  | .not => word.map Char.toUpper = ['N', 'O', 'T']
  | .opening => word = ['(']
  | .closing => word = [')']

/-- A character that goes on a name or a keyword. -/
def inName (c : Char) : Bool :=
  c.isAlphanum || c == '_' || c == '$' || 0x80 ≤ c.toNat

/-- A blank of SQL: a space, a tab or a line break. -/
def isGap (c : Char) : Bool :=
  c == ' ' || (0x09 ≤ c.toNat && c.toNat ≤ 0x0D)

/-- A word does not run into the text after it. -/
def Apart (word rest : List Char) : Prop :=
  ∀ c ∈ word.getLast?, ∀ d ∈ rest.head?, inName c = true → inName d = false

/-- **A text is written by tokens**: their words in turn, with blanks before, between and after
them wherever the author likes, and wherever two words would run into each other. -/
inductive Written (atom : α → String) : List (Token α) → List Char → Prop where
  | nil : Written atom [] []
  | blank {c ts cs} (blank : isGap c = true) (rest : Written atom ts cs) :
      Written atom ts (c :: cs)
  | word {t ts word cs} (here : t.IsWord atom word) (apart : Apart word cs)
      (rest : Written atom ts cs) : Written atom (t :: ts) (word ++ cs)

variable {atom : α → String}

theorem inName_of_isGap {c : Char} (blank : isGap c = true) : inName c = false := by
  rcases Bool.or_eq_true_iff.mp blank with space | control
  · rw [beq_iff_eq.mp space]
    rfl
  · obtain ⟨low, high⟩ := Bool.and_eq_true_iff.mp control
    have all : ∀ n < 14, 9 ≤ n → inName (Char.ofNat n) = false := by decide
    rw [← Char.ofNat_toNat c]
    exact all c.toNat (Nat.lt_succ_of_le (of_decide_eq_true high)) (of_decide_eq_true low)

/-- A blank keeps words apart. -/
theorem apart_blank {c : Char} (blank : isGap c = true) (word rest : List Char) :
    Apart word (c :: rest) := by
  intro _ _ d first _
  cases first
  exact inName_of_isGap blank

theorem apart_append {word cs : List Char} {c : Char} (blank : isGap c = true)
    (apart : Apart word cs) (rest : List Char) : Apart word (cs ++ c :: rest) := by
  cases cs with
  | nil => exact apart_blank blank word rest
  | cons d cs => exact apart

/-- Two texts may be written one after the other when the second starts with a blank. -/
theorem Written.append {ts us : List (Token α)} {cs : List Char} {c : Char} {ds : List Char}
    (first : Written atom ts cs) (blank : isGap c = true)
    (second : Written atom us (c :: ds)) : Written atom (ts ++ us) (cs ++ c :: ds) := by
  induction first with
  | nil => exact second
  | blank here _ ih => exact .blank here ih
  | word here apart _ ih =>
    rw [List.append_assoc, List.cons_append]
    exact .word here (apart_append blank apart ds) ih

/-- A text may be written after NOT. -/
theorem Written.not {ts : List (Token α)} {s : String} (rest : Written atom ts s.toList) :
    Written atom (.not :: ts) ("NOT " ++ s).toList := by
  rw [String.toList_append]
  have word : Written atom (.not :: ts) (['N', 'O', 'T'] ++ ' ' :: s.toList) :=
    .word rfl (apart_blank rfl _ _) (.blank rfl rest)
  exact word

/-- Two texts may be written with AND between them, on a line of its own. -/
theorem Written.and {ts us : List (Token α)} {s t : String} (first : Written atom ts s.toList)
    (second : Written atom us t.toList) :
    Written atom (ts ++ .and :: us) (s ++ "\n    AND " ++ t).toList := by
  have word : Written atom (.and :: us) (['A', 'N', 'D'] ++ ' ' :: t.toList) :=
    .word rfl (apart_blank rfl _ _) (.blank rfl second)
  have line := Written.blank (c := ' ') rfl (.blank (c := ' ') rfl
    (.blank (c := ' ') rfl (.blank (c := ' ') rfl word)))
  rw [String.append_assoc, String.toList_append, String.toList_append]
  exact first.append rfl (.blank (c := '\n') rfl line)

/-- An atom is written as it is. -/
theorem written_atom (a : α) : Written atom [.atom a] (atom a).toList := by
  have apart : Apart (atom a).toList [] := fun _ _ _ none => nomatch none
  have word : Written atom [.atom a] ((atom a).toList ++ []) := .word rfl apart .nil
  rwa [List.append_nil] at word

end Token

/-! ## Tokens next to a fragment -/

theorem Truth.and_assoc (a b c : Truth) : (a.and b).and c = a.and (b.and c) := by
  cases a <;> cases b <;> cases c <;> rfl

namespace Reads

variable {α : Type} {ts : List (Token α)} {q : Condition α}

/-- What may stand in front of a factor may stand in front of a term. -/
theorem exists_term_of_front {front : List (Token α)}
    (factors : ∀ {us r}, Reads .factor us r → ∃ x, Reads .term (front ++ us) x)
    (h : Reads .term ts q) : ∃ x, Reads .term (front ++ ts) x := by
  generalize here : Rank.term = rank at h
  induction h with
  | factor h => exact factors h
  | and left right ihLeft _ =>
    obtain ⟨x, hx⟩ := ihLeft rfl
    rw [← List.append_assoc]
    exact ⟨_, .and hx right⟩
  | atom | group | primary | not | term | or => cases here

/-- What may stand in front of a factor may stand in front of a condition. -/
theorem exists_of_front {front : List (Token α)}
    (factors : ∀ {us r}, Reads .factor us r → ∃ x, Reads .term (front ++ us) x)
    (h : Reads .condition ts q) : ∃ x, Reads .condition (front ++ ts) x := by
  generalize here : Rank.condition = rank at h
  induction h with
  | term h =>
    obtain ⟨x, hx⟩ := exists_term_of_front factors h
    exact ⟨x, .term hx⟩
  | or left right ihLeft _ =>
    obtain ⟨x, hx⟩ := ihLeft rfl
    rw [← List.append_assoc]
    exact ⟨_, .or hx right⟩
  | atom | group | primary | not | factor | and => cases here

/-- NOT may stand in front of a factor. -/
theorem exists_not {us : List (Token α)} {r : Condition α} (h : Reads .factor us r) :
    ∃ x, Reads .term ([.not] ++ us) x :=
  ⟨_, .factor (.not h)⟩

/-- An atom and AND may stand in front of a factor. -/
theorem exists_atom_and (a : α) {us : List (Token α)} {r : Condition α} (h : Reads .factor us r) :
    ∃ x, Reads .term ([.atom a, .and] ++ us) x :=
  ⟨_, .and (.factor (.primary (.atom a))) h⟩

/-- In front of a term, an atom and AND are joined with the whole of it. -/
theorem exists_atom_and_term (a : α) (h : Reads .term ts q) :
    ∃ x, Reads .term (.atom a :: .and :: ts) x ∧
      ∀ v : α → Truth, x.eval v = (Condition.and (.leaf a) q).eval v := by
  generalize here : Rank.term = rank at h
  induction h with
  | factor h => exact ⟨_, .and (.factor (.primary (.atom a))) h, fun v => rfl⟩
  | and left right ihLeft _ =>
    obtain ⟨x, hx, same⟩ := ihLeft rfl
    refine ⟨_, .and hx right, fun v => ?_⟩
    rw [Condition.eval, same, Condition.eval, Truth.and_assoc]
    rfl
  | atom | group | primary | not | term | or => cases here

end Reads

/-! ## What the text means -/

namespace Condition

variable {α : Type}

/-- A text is written by tokens that have one reading.  If it is safe, the reading has the value of
`p` under every assignment; if not, and no leaf of `p` occurs twice, some assignment of known truth
values tells the reading from `p`. -/
def MeansIf (safe : Prop) (atom : α → String) (text : String) (ts : List (Token α))
    (p : Condition α) : Prop :=
  Token.Written atom ts text.toList ∧
    ∃ r : Condition α, (∀ x, Reads .condition ts x ↔ x = r) ∧
      (safe → ∀ v : α → Truth, r.eval v = p.eval v) ∧
      (p.leaves.Nodup → ¬ safe → ∃ v : α → Truth, (∀ a, v a ≠ .unknown) ∧ r.eval v ≠ p.eval v)

section Means

variable {safe : Prop} {atom : α → String} {text : String} {ts : List (Token α)}
  {p r : Condition α}

theorem iff_of_reads (reads : Reads .condition ts r) (x : Condition α) :
    Reads .condition ts x ↔ x = r := by
  constructor
  · intro h
    exact h.unique reads
  · rintro rfl
    exact reads

/-- A reading with the value of the calls makes a text safe. -/
theorem meansIf_of_eval (written : Token.Written atom ts text.toList)
    (reads : Reads .condition ts r) (holds : safe) (same : ∀ v : α → Truth, r.eval v = p.eval v) :
    MeansIf safe atom text ts p :=
  ⟨written, r, iff_of_reads reads, fun _ => same, fun _ unsafe_ => absurd holds unsafe_⟩

/-- A reading with the opposite value, for some assignment, makes a text unsafe. -/
theorem meansIf_of_opposite (written : Token.Written atom ts text.toList)
    (reads : Reads .condition ts r) (fails : ¬ safe)
    (opposite : p.leaves.Nodup → ∃ (v : α → Bool) (b : Bool), r.holds v = b ∧ p.holds v = !b) :
    MeansIf safe atom text ts p := by
  refine ⟨written, r, iff_of_reads reads, fun holds => absurd holds fails, fun distinct _ => ?_⟩
  obtain ⟨v, b, reading, built⟩ := opposite distinct
  refine ⟨fun a => .ofBool (v a), fun a => Truth.ofBool_ne_unknown _, fun same => ?_⟩
  rw [eval_ofBool, eval_ofBool, reading, built] at same
  exact (Bool.eq_not_self b).mp (Truth.ofBool_injective same)

end Means

section Fragment

variable {atom : α → String} {ts : List (Token α)} {q : Condition α} {text : String}

/-- **NOT in front of a fragment** means the whole fragment just when that is one factor. -/
theorem meansIf_not (written : Token.Written atom (.not :: ts) text.toList)
    (h : Reads .condition ts q) :
    MeansIf (Reads .factor ts q) atom text (.not :: ts) (.not q) := by
  by_cases factor : Reads .factor ts q
  · exact meansIf_of_eval written (.term (.factor (.not factor))) factor fun _ => rfl
  cases h with
  | term h =>
    cases h with
    | factor h => exact absurd h factor
    | @and ts us q r left right =>
      obtain ⟨x, hx⟩ := Reads.exists_term_of_front Reads.exists_not left
      refine meansIf_of_opposite written (.term (.and hx right)) factor fun distinct => ?_
      -- when the last factor does not hold, neither do the reading and what is to be denied
      obtain ⟨v, no, -⟩ := exists_holds (List.nodup_append'.mp distinct).2.1 false
      have reading : (and x r).holds v = false := by rw [holds, no, Bool.and_false]
      have built : (not (and q r)).holds v = true := by
        rw [holds, holds, no, Bool.and_false, Bool.not_false]
      exact ⟨v, false, reading, built⟩
  | @or ts us q r left right =>
    obtain ⟨x, hx⟩ := Reads.exists_of_front Reads.exists_not left
    refine meansIf_of_opposite written (.or hx right) factor fun distinct => ?_
    obtain ⟨v, yes, -⟩ := exists_holds (List.nodup_append'.mp distinct).2.1 true
    have reading : (or x r).holds v = true := by rw [holds, yes, Bool.or_true]
    have built : (not (or q r)).holds v = false := by
      rw [holds, holds, yes, Bool.or_true, Bool.not_true]
    exact ⟨v, true, reading, built⟩

/-- **An atom and AND in front of a fragment** are joined with the whole fragment just when that is
one term. -/
theorem meansIf_atom_and {a : α} (written : Token.Written atom (.atom a :: .and :: ts) text.toList)
    (h : Reads .condition ts q) :
    MeansIf (Reads .term ts q) atom text (.atom a :: .and :: ts) (.and (.leaf a) q) := by
  by_cases term : Reads .term ts q
  · obtain ⟨x, hx, same⟩ := Reads.exists_atom_and_term a term
    exact meansIf_of_eval written (.term hx) term same
  cases h with
  | term h => exact absurd h term
  | @or ts us q r left right =>
    obtain ⟨x, hx⟩ := Reads.exists_of_front (Reads.exists_atom_and a) left
    refine meansIf_of_opposite written (.or hx right) term fun distinct => ?_
    -- the atom does not hold, and the last term does, which is not joined with the atom
    obtain ⟨single, others, apart⟩ := List.nodup_append'.mp distinct
    have apart : (Condition.leaf a).leaves.Disjoint r.leaves :=
      fun _ here there => apart here (List.mem_append_right _ there)
    obtain ⟨v, ⟨no, -⟩, yes, -⟩ :=
      exists_both apart (exists_holds single false) (exists_holds others.of_append_right true)
    have reading : (or x r).holds v = true := by rw [holds, yes, Bool.or_true]
    have built : (and (leaf a) (or q r)).holds v = false := by rw [holds, no, Bool.false_and]
    exact ⟨v, true, reading, built⟩

/-- **AND and an atom behind a fragment** are joined with the whole fragment just when that is one
term. -/
theorem meansIf_and_atom {a : α} (written : Token.Written atom (ts ++ [.and, .atom a]) text.toList)
    (h : Reads .condition ts q) :
    MeansIf (Reads .term ts q) atom text (ts ++ [.and, .atom a]) (.and q (.leaf a)) := by
  have operand : Reads .factor [.atom a] (.leaf a) := .primary (.atom a)
  by_cases term : Reads .term ts q
  · exact meansIf_of_eval written (.term (.and term operand)) term fun _ => rfl
  cases h with
  | term h => exact absurd h term
  | @or ts us q r left right =>
    have reads : Reads .condition ((ts ++ .or :: us) ++ [.and, .atom a])
        (.or q (.and r (.leaf a))) := by
      rw [List.append_assoc, List.cons_append]
      exact .or left (.and right operand)
    refine meansIf_of_opposite written reads term fun distinct => ?_
    -- the atom does not hold, and the first terms do, which are not joined with the atom
    obtain ⟨others, single, apart⟩ := List.nodup_append'.mp distinct
    have apart : q.leaves.Disjoint (Condition.leaf a).leaves :=
      fun _ here there => apart (List.mem_append_left _ here) there
    obtain ⟨v, ⟨yes, -⟩, no, -⟩ :=
      exists_both apart (exists_holds others.of_append_left true) (exists_holds single false)
    have reading : (or q (and r (leaf a))).holds v = true := by rw [holds, yes, Bool.true_or]
    have built : (and (or q r) (leaf a)).holds v = false := by rw [holds, no, Bool.and_false]
    exact ⟨v, true, reading, built⟩

end Fragment

end Condition

/-! ## Templates -/

namespace Filter

open Condition

/-- **When SQL takes a template for one operand.**

The fragment of a template is written by tokens that SQL reads as `q`, and `a` is a comparison on a
column.  The denied template is written by NOT and these tokens, and it means the denied `q` exactly
when the tokens are one factor.  The template joined with the comparison, on either side, is written
by the tokens, AND, and the comparison, and it means that both hold exactly when the tokens are one
term.  Where it does not, some assignment tells the difference, if no atom occurs twice. -/
theorem template_reading_agrees_iff {α : Type} {atom : α → String} {ts : List (Token α)}
    {q : Condition α} {fragment : String} {values : List Value} {t f : Filter} {c : Column}
    {k : Comparison} {a : α} (written : Token.Written atom ts fragment.toList)
    (wellFormed : Reads .condition ts q) (made : template fragment values = .ok t)
    (compared : compare c k = .ok f) (shown : atom a = f.condition) :
    MeansIf (Reads .factor ts q) atom t.negate.condition (.not :: ts) (.not q) ∧
      MeansIf (Reads .term ts q) atom (f.and t).condition (.atom a :: .and :: ts)
        (.and (.leaf a) q) ∧
      MeansIf (Reads .term ts q) atom (t.and f).condition (ts ++ [.and, .atom a])
        (.and q (.leaf a)) := by
  obtain ⟨-, rfl⟩ := template_eq_ok made
  obtain rfl := compare_eq_ok compared
  have first : Token.Written atom ([.atom a] ++ .and :: ts)
      (k.condition c.name ++ "\n    AND " ++ fragment).toList := by
    have written := (Token.written_atom a).and written
    rwa [shown] at written
  have last : Token.Written atom (ts ++ .and :: [.atom a])
      (fragment ++ "\n    AND " ++ k.condition c.name).toList := by
    have written := written.and (Token.written_atom a)
    rwa [shown] at written
  exact ⟨meansIf_not written.not wellFormed, meansIf_atom_and first wellFormed,
    meansIf_and_atom last wellFormed⟩

/-- The tokens of `A = ? OR B = ?`, with atoms that are their own texts. -/
def orTokens : List (Token String) :=
  [.atom "A = ?", .or, .atom "B = ?"]

theorem written_orTokens : Token.Written id orTokens "A = ? OR B = ?".toList := by
  have first : Token.Written id [.atom "A = ?"] "A = ?".toList := Token.written_atom "A = ?"
  have second : Token.Written id [.atom "B = ?"] "B = ?".toList := Token.written_atom "B = ?"
  have or : Token.Written id [.or, .atom "B = ?"] (['O', 'R'] ++ ' ' :: "B = ?".toList) :=
    .word rfl (Token.apart_blank rfl _ _) (.blank rfl second)
  exact first.append rfl (.blank (c := ' ') rfl or)

theorem reads_orTokens : Reads .condition orTokens (.or (.leaf "A = ?") (.leaf "B = ?")) :=
  .or (.term (.factor (.primary (.atom _)))) (.factor (.primary (.atom _)))

/-- A fragment with an OR, denied and joined with a comparison. -/
theorem template_reading_agrees_iff_or :
    let t := leaf "A = ? OR B = ?" [.int 1, .int 2]
    let f := leaf "C = ?" [.int 3]
    let q : Condition String := .or (.leaf "A = ?") (.leaf "B = ?")
    template "A = ? OR B = ?" [.int 1, .int 2] = .ok t ∧
      compare { name := "C" } (.relation .equal (.int 3)) = .ok f ∧
      MeansIf (Reads .factor orTokens q) id t.negate.condition (.not :: orTokens) (.not q) ∧
      MeansIf (Reads .term orTokens q) id (f.and t).condition (.atom "C = ?" :: .and :: orTokens)
        (.and (.leaf "C = ?") q) ∧
      MeansIf (Reads .term orTokens q) id (t.and f).condition (orTokens ++ [.and, .atom "C = ?"])
        (.and q (.leaf "C = ?")) := by
  intro t f q
  have made : template "A = ? OR B = ?" [.int 1, .int 2] = .ok t := rfl
  have compared : compare { name := "C" } (.relation .equal (.int 3)) = .ok f := rfl
  exact ⟨made, compared,
    template_reading_agrees_iff written_orTokens reads_orTokens made compared rfl⟩

/-- When both are yes, the denied fragment is no; SQL denies the first only, and that gives yes. -/
theorem negated_or_is_regrouped :
    ∃ t, template "A = ? OR B = ?" [.int 1, .int 2] = .ok t ∧
      t.negate.condition = "NOT A = ? OR B = ?" ∧
      Token.Written id orTokens "A = ? OR B = ?".toList ∧
      Token.Written id (.not :: orTokens) t.negate.condition.toList ∧
      ∃ q r : Condition String, (∀ x, Reads .condition orTokens x ↔ x = q) ∧
        (∀ x, Reads .condition (.not :: orTokens) x ↔ x = r) ∧
        ∃ v : String → Truth, v "A = ?" = .yes ∧ v "B = ?" = .yes ∧
          r.eval v = .yes ∧ (Condition.not q).eval v = .no := by
  have reads : Reads .condition (.not :: orTokens) (.or (.not (.leaf "A = ?")) (.leaf "B = ?")) :=
    .or (.term (.factor (.not (.primary (.atom _))))) (.factor (.primary (.atom _)))
  exact ⟨_, rfl, by decide, written_orTokens, written_orTokens.not, _, _,
    iff_of_reads reads_orTokens, iff_of_reads reads, fun _ => .yes, rfl, rfl, rfl, rfl⟩

end Filter

end BoundSql
