import BoundSql.Proofs.Reader

/-!
# Cutting a text into tokens

`Lexer.tokens` cuts a condition text into its tokens without knowing its leaves.  A leaf holds
blanks, the AND of a BETWEEN, words such as NOT LIKE, and the parentheses of a list, so words do not
tell where it ends.  What tells is that

* a connective stands on a line of its own, and no leaf has a line break;
* a list closes the parenthesis that it opens;
* a leaf starts with the name of its column, and a plain name (`Name.Plain`) is not NOT.

`Lexer.tokens_spell` says that the tokens of a tree of calls are cut out again wherever its leaves
are of this kind (`Atomic`), and `Name.Plain.atomic` that comparisons on plain names are.
-/

namespace BoundSql

namespace Lexer

/-! ## Signs and leaves -/

/-- The tokens that are no leaves. -/
def signs : List (Token String) :=
  [.and, .or, .not, .opening, .closing]

/-- The sign that a text starts with. -/
def sign? (cs : List Char) : Option (Token String) :=
  signs.find? fun t => (t.text id).toList.isPrefixOf cs

/-- The depth of parentheses in a leaf after one more character; `none` where the leaf has ended, at
a line break or a parenthesis that it has not opened. -/
def deepen (depth : Nat) (c : Char) : Option Nat :=
  if c = '\n' then none
  else if c = '(' then some (depth + 1)
  else if c = ')' then if depth = 0 then none else some (depth - 1)
  else some depth

/-- What belongs to a leaf that stands at some depth, and what follows it. -/
def leaf : Nat → List Char → List Char × List Char
  | _, [] => ([], [])
  | depth, c :: cs =>
    match deepen depth c with
    | none => ([], c :: cs)
    | some depth => (c :: (leaf depth cs).1, (leaf depth cs).2)

theorem length_leaf (depth : Nat) (cs : List Char) : (leaf depth cs).2.length ≤ cs.length := by
  induction cs generalizing depth with
  | nil => exact Nat.le_refl 0
  | cons c cs ih =>
    rw [leaf]
    split
    · exact Nat.le_refl _
    · exact Nat.le_succ_of_le (ih _)

/-- The tokens of a text: a sign where one stands, and a leaf elsewhere. -/
def tokens (cs : List Char) : List (Token String) :=
  match cs with
  | [] => []
  | c :: cs =>
    match sign? (c :: cs) with
    | some t => t :: tokens (cs.drop ((t.text id).length - 1))
    | none => .atom (String.ofList (c :: (leaf 0 cs).1)) :: tokens (leaf 0 cs).2
termination_by cs.length
decreasing_by
  · rw [List.length_drop, List.length_cons]
    omega
  · exact Nat.lt_succ_of_le (length_leaf 0 cs)

/-! ## Reading a sign -/

theorem text_ne_nil : ∀ t ∈ signs, (t.text id).toList ≠ [] := by
  decide

/-- No sign starts with another. -/
theorem eq_of_isPrefixOf : ∀ s ∈ signs, ∀ t ∈ signs,
    (s.text id).toList.isPrefixOf (t.text id).toList = true → s = t := by
  decide

theorem sign?_append {t : Token String} (h : t ∈ signs) (rest : List Char) :
    sign? ((t.text id).toList ++ rest) = some t := by
  have starts : (t.text id).toList <+: (t.text id).toList ++ rest := List.prefix_append _ _
  rw [sign?]
  cases found : signs.find? fun s => (s.text id).toList.isPrefixOf ((t.text id).toList ++ rest) with
  | none => exact absurd (List.isPrefixOf_iff_prefix.mpr starts) (List.find?_eq_none.mp found t h)
  | some s =>
    have known : s ∈ signs := List.mem_of_find?_eq_some found
    have chosen := List.find?_some found
    have other := List.isPrefixOf_iff_prefix.mp chosen
    -- of two prefixes of one text, one starts with the other
    rcases List.prefix_or_prefix_of_prefix other starts with shorter | longer
    · rw [eq_of_isPrefixOf s known t h (List.isPrefixOf_iff_prefix.mpr shorter)]
    · rw [eq_of_isPrefixOf t h s known (List.isPrefixOf_iff_prefix.mpr longer)]

/-- A sign is cut off wherever a token may start. -/
theorem tokens_sign {t : Token String} (h : t ∈ signs) (rest : List Char) :
    tokens ((t.text id).toList ++ rest) = t :: tokens rest := by
  have found := sign?_append h rest
  cases text : (t.text id).toList with
  | nil => exact absurd text (text_ne_nil t h)
  | cons c cs =>
    have length : (t.text id).length = cs.length + 1 := by
      rw [← String.length_toList, text, List.length_cons]
    rw [text, List.cons_append] at found
    rw [List.cons_append, tokens, found]
    show t :: tokens (List.drop ((t.text id).length - 1) (cs ++ rest)) = t :: tokens rest
    rw [length, Nat.add_sub_cancel, List.drop_left]

/-! ## Reading a leaf -/

/-- A leaf ends before such a text. -/
def Boundary (cs : List Char) : Prop :=
  cs.head?.all (fun c => (deepen 0 c).isNone) = true

instance (cs : List Char) : Decidable (Boundary cs) :=
  inferInstanceAs (Decidable (_ = true))

theorem boundary_nil : Boundary [] :=
  rfl

/-- The signs that may follow an operand. -/
def followers : List (Token String) :=
  [.and, .or, .closing]

/-- A leaf ends before such a sign. -/
theorem boundary_sign {t : Token String} (h : t ∈ followers) (rest : List Char) :
    Boundary ((t.text id).toList ++ rest) := by
  have ends : ∀ t ∈ followers, (t.text id).toList ≠ [] ∧ Boundary (t.text id).toList := by
    decide
  obtain ⟨nonempty, first⟩ := ends t h
  cases text : (t.text id).toList with
  | nil => exact absurd text nonempty
  | cons c cs =>
    rw [text] at first
    exact first

theorem leaf_boundary {rest : List Char} (h : Boundary rest) : leaf 0 rest = ([], rest) := by
  cases rest with
  | nil => rfl
  | cons c cs =>
    have stops : deepen 0 c = none := Option.isNone_iff_eq_none.mp h
    rw [leaf, stops]

/-- A text that ends no leaf goes on it. -/
theorem leaf_append {depth depth' : Nat} {cs : List Char}
    (h : cs.foldlM deepen depth = some depth') (rest : List Char) :
    leaf depth (cs ++ rest) = (cs ++ (leaf depth' rest).1, (leaf depth' rest).2) := by
  induction cs generalizing depth with
  | nil =>
    cases h
    rfl
  | cons c cs ih =>
    rw [List.foldlM_cons] at h
    obtain ⟨next, first, others⟩ := Option.bind_eq_some_iff.mp h
    rw [List.cons_append, leaf, first]
    show (c :: (leaf next (cs ++ rest)).1, (leaf next (cs ++ rest)).2) = _
    rw [ih others, List.cons_append]

/-- A text that is cut out as one leaf: no sign stands at its start, it has no line break, and it
closes what it opens. -/
def Atomic (s : String) : Prop :=
  ∃ c cs, s.toList = c :: cs ∧ (∀ rest, sign? (c :: (cs ++ rest)) = none) ∧
    cs.foldlM deepen 0 = some 0

/-- Such a leaf is cut off before a boundary. -/
theorem tokens_atom {s : String} (h : Atomic s) {rest : List Char} (ends : Boundary rest) :
    tokens (s.toList ++ rest) = .atom s :: tokens rest := by
  obtain ⟨c, cs, text, noSign, closed⟩ := h
  have whole : String.ofList (c :: cs) = s := by rw [← text, String.ofList_toList]
  rw [text, List.cons_append, tokens, noSign rest, leaf_append closed, leaf_boundary ends,
    List.append_nil]
  show .atom (String.ofList (c :: cs)) :: tokens rest = .atom s :: tokens rest
  rw [whole]

/-! ## Reading the tokens of calls -/

section Calls

variable {α : Type} {text : α → String}

/-- Before a boundary, the text of `ts` is cut into `us`. -/
def Cut (text : α → String) (ts : List (Token α)) (us : List (Token String)) : Prop :=
  ∀ rest, Boundary rest → tokens ((Token.spell text ts).toList ++ rest) = us ++ tokens rest

theorem cut_nil : Cut text [] [] := by
  intro rest ends
  rw [Token.spell_nil]
  rfl

theorem toList_spell_cons (t : Token α) (ts : List (Token α)) (rest : List Char) :
    (Token.spell text (t :: ts)).toList ++ rest =
      (t.text text).toList ++ ((Token.spell text ts).toList ++ rest) := by
  rw [Token.spell_cons, String.toList_append, List.append_assoc]

/-- A sign is cut off before anything. -/
theorem Cut.sign {t : Token α} {ts : List (Token α)} {u : Token String} {us : List (Token String)}
    (h : Cut text ts us) (known : u ∈ signs) (same : t.text text = u.text id) :
    Cut text (t :: ts) (u :: us) := by
  intro rest ends
  rw [toList_spell_cons, same, tokens_sign known, h rest ends, List.cons_append]

/-- What comes before a sign that may follow an operand is cut off there. -/
theorem Cut.follow {t : Token α} {ts ts' : List (Token α)} {u : Token String}
    {us us' : List (Token String)} (h : Cut text ts us) (known : u ∈ followers)
    (same : t.text text = u.text id) (next : Cut text (t :: ts') (u :: us')) :
    Cut text (ts ++ t :: ts') (us ++ u :: us') := by
  intro rest ends
  have here : Boundary ((Token.spell text (t :: ts')).toList ++ rest) := by
    rw [toList_spell_cons, same]
    exact boundary_sign known _
  rw [Token.spell_append, String.toList_append, List.append_assoc, h _ here, next rest ends,
    List.append_assoc]

/-- Parentheses are cut off on both sides. -/
theorem Cut.enclose {ts : List (Token α)} {us : List (Token String)} (h : Cut text ts us)
    (composite : Bool) : Cut text (Token.enclose composite ts) (Token.enclose composite us) := by
  cases composite with
  | false => exact h
  | true =>
    have closing : Cut text [.closing] [.closing] := cut_nil.sign (by decide) rfl
    have inside : Cut text (ts ++ [.closing]) (us ++ [.closing]) :=
      h.follow (by decide) rfl closing
    exact inside.sign (by decide) rfl

/-- **The tokens of calls are cut out of their text**, when each leaf is cut out as one. -/
theorem cut_tokens (p : Condition α) (atomic : ∀ a ∈ p.leaves, Atomic (text a)) :
    Cut text p.tokens (p.map text).tokens := by
  -- a left operand ends before its connective, any other before a parenthesis or the rest
  induction p with
  | leaf a =>
    intro rest ends
    rw [Condition.tokens, toList_spell_cons, Token.spell_nil]
    exact tokens_atom (atomic a List.mem_cons_self) ends
  | and p q hp hq =>
    have left := hp fun a ha => atomic a (List.mem_append_left _ ha)
    have right := (hq fun a ha => atomic a (List.mem_append_right _ ha)).enclose q.isConnective
    rw [Condition.tokens, Condition.map, Condition.tokens, Condition.isConnective_map]
    exact left.follow (by decide) rfl (right.sign (by decide) rfl)
  | or p q hp hq =>
    have left := hp fun a ha => atomic a (List.mem_append_left _ ha)
    have right := (hq fun a ha => atomic a (List.mem_append_right _ ha)).enclose q.isConnective
    rw [Condition.tokens, Condition.map, Condition.tokens, Condition.isConnective_map]
    exact left.follow (by decide) rfl (right.sign (by decide) rfl)
  | not p hp =>
    have operand := (hp atomic).enclose p.isConnective
    rw [Condition.tokens, Condition.map, Condition.tokens, Condition.isConnective_map]
    exact operand.sign (by decide) rfl

/-- The whole text of calls is cut into their tokens. -/
theorem tokens_spell (p : Condition α) (atomic : ∀ a ∈ p.leaves, Atomic (text a)) :
    tokens (Token.spell text p.tokens).toList = (p.map text).tokens := by
  have cut := cut_tokens p atomic [] boundary_nil
  rwa [List.append_nil, tokens, List.append_nil] at cut

end Calls

end Lexer

end BoundSql
