import BoundSql.Filter

/-!
# The tokens of a condition

A condition text is a sequence of tokens: the texts of the leaves, the three connectives, and
parentheses.  `Condition.tokens` lists them for a tree of calls, over leaves of any kind, and
`condition_filter_map` says that the filter built by the calls spells exactly these tokens, whatever
the texts of the leaves are.  What is proved about the tokens is therefore about the text with its
leaves taken as atoms.

The only fact about leaves that the text depends on is that no leaf is marked as composite, which
holds of comparisons and templates.
-/

namespace BoundSql

namespace Filter

/-- A comparison that is not refused is a leaf. -/
theorem compare_eq_ok {c : Column} {k : Comparison} {f : Filter} (h : compare c k = .ok f) :
    f = leaf (k.condition c.name) k.values := by
  unfold compare at h
  split at h
  · cases h
  · cases h; rfl

/-- A template that is not refused is a leaf, and it has as many values as placeholders. -/
theorem template_eq_ok {fragment : String} {values : List Value} {f : Filter}
    (h : template fragment values = .ok f) :
    Placeholder.count fragment = values.length ∧ f = leaf fragment values := by
  rw [template] at h
  split at h
  · cases h
  · split at h
    · cases h
    · next same => cases h; exact ⟨Decidable.not_not.mp same, rfl⟩

theorem composite_of_compare {c : Column} {k : Comparison} {f : Filter} (h : compare c k = .ok f) :
    f.composite = false := by
  rw [compare_eq_ok h, leaf]

end Filter

/-- A token of a condition text, over leaves of any kind. -/
inductive Token (α : Type) where
  | atom (a : α)
  | and
  | or
  | not
  | opening
  | closing
  deriving DecidableEq, Repr

namespace Token

variable {α : Type}

/-- The text of a token. -/
def text (leaf : α → String) : Token α → String
  | .atom a => leaf a
  | .and => "\n    AND "
  | .or => "\n     OR "
  | .not => "NOT "
  | .opening => "("
  | .closing => ")"

/-- The text that tokens spell. -/
def spell (leaf : α → String) (ts : List (Token α)) : String :=
  String.join (ts.map (text leaf))

theorem spell_nil (leaf : α → String) : spell leaf [] = "" :=
  String.join_nil

theorem spell_cons (leaf : α → String) (t : Token α) (ts : List (Token α)) :
    spell leaf (t :: ts) = t.text leaf ++ spell leaf ts :=
  String.join_cons

theorem spell_append (leaf : α → String) (ts us : List (Token α)) :
    spell leaf (ts ++ us) = spell leaf ts ++ spell leaf us := by
  rw [spell, List.map_append, String.join_append, spell, spell]

/-- Tokens in parentheses, when they need them. -/
def enclose (composite : Bool) (ts : List (Token α)) : List (Token α) :=
  if composite then .opening :: (ts ++ [.closing]) else ts

/-- The leaf of an atom. -/
def atom? : Token α → Option α
  | .atom a => some a
  | _ => none

end Token

namespace Condition

variable {α β : Type}

/-- The same calls on other leaves. -/
def map (f : α → β) : Condition α → Condition β
  | .leaf a => .leaf (f a)
  | .and p q => .and (p.map f) (q.map f)
  | .or p q => .or (p.map f) (q.map f)
  | .not p => .not (p.map f)

theorem map_id (p : Condition α) : p.map id = p := by
  induction p with
  | leaf a => rfl
  | and p q hp hq => rw [map, hp, hq]
  | or p q hp hq => rw [map, hp, hq]
  | not p hp => rw [map, hp]

/-- Whether the last call is an AND or an OR. -/
def isConnective : Condition α → Bool
  | .and _ _ | .or _ _ => true
  | .leaf _ | .not _ => false

theorem isConnective_map (f : α → β) (p : Condition α) :
    (p.map f).isConnective = p.isConnective := by
  cases p <;> rfl

/-- The tokens of the condition that the calls build. -/
def tokens : Condition α → List (Token α)
  | .leaf a => [.atom a]
  | .and p q => p.tokens ++ .and :: Token.enclose q.isConnective q.tokens
  | .or p q => p.tokens ++ .or :: Token.enclose q.isConnective q.tokens
  | .not p => .not :: Token.enclose p.isConnective p.tokens

/-- The atoms are the leaves, from left to right. -/
theorem atoms_tokens (p : Condition α) : p.tokens.filterMap Token.atom? = p.leaves := by
  have enclosed (c : Bool) (ts : List (Token α)) :
      (Token.enclose c ts).filterMap Token.atom? = ts.filterMap Token.atom? := by
    cases c <;> simp [Token.enclose, Token.atom?, List.filterMap_cons]
  induction p with
  | leaf a => rfl
  | and p q hp hq =>
    rw [tokens, List.filterMap_append, List.filterMap_cons, hp, enclosed, hq]
    rfl
  | or p q hp hq =>
    rw [tokens, List.filterMap_append, List.filterMap_cons, hp, enclosed, hq]
    rfl
  | not p hp =>
    rw [tokens, List.filterMap_cons, enclosed, hp]
    rfl

/-- The filter is marked as composite exactly when the last call is an AND or an OR. -/
theorem composite_filter_map (leaf : α → Filter) (p : Condition α)
    (simple : ∀ a ∈ p.leaves, (leaf a).composite = false) :
    (p.map leaf).filter.composite = p.isConnective := by
  cases p with
  | leaf a => exact simple a List.mem_cons_self
  | and p q => rfl
  | or p q => rfl
  | not p => rfl

/-- A filter as an operand spells its tokens, in parentheses when it is composite. -/
theorem grouped_eq_spell {f : Filter} {leaf : α → String} {ts : List (Token α)}
    (h : f.condition = Token.spell leaf ts) :
    f.grouped = Token.spell leaf (Token.enclose f.composite ts) := by
  rw [Filter.grouped, Token.enclose, h]
  cases f.composite with
  | false => rfl
  | true =>
    simp only [if_true, Token.spell_nil, Token.spell_cons, Token.spell_append, Token.text,
      String.append_empty, String.append_assoc]

/-- Two filters with a connective between them spell their tokens in a row, the right one as an
operand. -/
theorem combine_eq_spell {f g : Filter} {leaf : α → String} {ts us : List (Token α)} (t : Token α)
    (hf : f.condition = Token.spell leaf ts) (hg : g.condition = Token.spell leaf us) :
    (Filter.combine (t.text leaf) f g).condition =
      Token.spell leaf (ts ++ t :: Token.enclose g.composite us) := by
  rw [Token.spell_append, Token.spell_cons, ← hf, ← grouped_eq_spell hg, ← String.append_assoc]
  rfl

/-- **The text of a filter spells the tokens of its calls**, whatever the leaves are. -/
theorem condition_filter_map (leaf : α → Filter) (p : Condition α)
    (simple : ∀ a ∈ p.leaves, (leaf a).composite = false) :
    (p.map leaf).filter.condition = Token.spell (fun a => (leaf a).condition) p.tokens := by
  induction p with
  | leaf a => rw [map, filter, tokens, Token.spell_cons, Token.spell_nil, Token.text,
      String.append_empty]
  | and p q hp hq =>
    have left := hp fun a ha => simple a (List.mem_append_left _ ha)
    have simpleRight : ∀ a ∈ q.leaves, (leaf a).composite = false :=
      fun a ha => simple a (List.mem_append_right _ ha)
    have spelled := combine_eq_spell .and left (hq simpleRight)
    rwa [composite_filter_map leaf q simpleRight] at spelled
  | or p q hp hq =>
    have left := hp fun a ha => simple a (List.mem_append_left _ ha)
    have simpleRight : ∀ a ∈ q.leaves, (leaf a).composite = false :=
      fun a ha => simple a (List.mem_append_right _ ha)
    have spelled := combine_eq_spell .or left (hq simpleRight)
    rwa [composite_filter_map leaf q simpleRight] at spelled
  | not p hp =>
    have operand := grouped_eq_spell (hp simple)
    rw [composite_filter_map leaf p simple] at operand
    rw [map, filter, Filter.negate, tokens, Token.spell_cons, operand]
    rfl

/-- The text of a filter spells the tokens of its calls on its leaves. -/
theorem condition_filter (p : Condition Filter) (simple : ∀ f ∈ p.leaves, f.composite = false) :
    p.filter.condition = Token.spell Filter.condition p.tokens := by
  have spelled := condition_filter_map id p simple
  rwa [map_id] at spelled

end Condition

end BoundSql
