import BoundSql.Text.Placeholder

/-!
# Laws of the placeholder scanner

The scanner of `BoundSql.Text.Placeholder` is a three-state machine: outside quotes, inside single
quotes, inside double quotes.  This module collects what statements about whole texts need.

* **Positions.**  `positions` lists where the placeholders stand, so that "the `k`-th placeholder"
  has a meaning; the positions of a concatenation are those of its parts, shifted.
* **Aligned texts.**  A text is aligned with a number when scanning it from outside quotes ends
  outside quotes and meets that many placeholders; it is neutral when the number is zero.  Numbers
  add up under concatenation, and every piece of fixed statement text is neutral.
* **Hidden text.**  Behind an open quote, a text without quotes hides all its placeholders and
  leaves the quote open.
-/

namespace BoundSql.Placeholder

/-! ## Positions -/

/-- The positions of the placeholders of a text that starts in `state`. -/
def positionsFrom : Option Char → List Char → List Nat
  | _, [] => []
  | state, c :: rest =>
    (if state = none ∧ c = '?' then [0] else []) ++ (positionsFrom (step state c) rest).map (· + 1)

/-- The positions of the placeholders of a text. -/
def positions (s : String) : List Nat :=
  positionsFrom none s.toList

/-- There are as many positions as placeholders. -/
theorem length_positionsFrom (state : Option Char) (cs : List Char) :
    (positionsFrom state cs).length = countFrom state cs := by
  induction cs generalizing state with
  | nil => rfl
  | cons c rest ih =>
    rw [positionsFrom, countFrom, List.length_append, List.length_map, ih]
    split <;> rfl

theorem length_positions (s : String) : (positions s).length = count s :=
  length_positionsFrom none s.toList

/-- The positions in a concatenation: those of the first part, and those of the second part from the
state that the first part ends in, shifted. -/
theorem positionsFrom_append (state : Option Char) (a b : List Char) :
    positionsFrom state (a ++ b) =
      positionsFrom state a ++ (positionsFrom (stateAfter state a) b).map (· + a.length) := by
  induction a generalizing state with
  | nil => simp [positionsFrom, stateAfter]
  | cons c a ih =>
    have shifted : ((fun n => n + 1) ∘ fun n => n + a.length) = fun n => n + (c :: a).length := by
      funext n
      simp only [Function.comp_apply, List.length_cons]
      omega
    rw [List.cons_append, positionsFrom, positionsFrom, ih, List.map_append, List.map_map, shifted,
      List.append_assoc]
    rfl

theorem positions_append {a b : String} (ha : Balanced a) :
    positions (a ++ b) = positions a ++ (positions b).map (· + a.length) := by
  have closed : stateAfter none a.toList = none := ha
  rw [positions, String.toList_append, positionsFrom_append, closed, String.length_toList]
  rfl

/-- A position is that of a placeholder exactly when a `?` stands there and the text before it
leaves no quote open. -/
theorem mem_positionsFrom {state : Option Char} {cs : List Char} {m : Nat} :
    m ∈ positionsFrom state cs ↔ cs[m]? = some '?' ∧ stateAfter state (cs.take m) = none := by
  induction cs generalizing state m with
  | nil => simp [positionsFrom]
  | cons c rest ih =>
    rw [positionsFrom, List.mem_append, List.mem_map]
    cases m with
    | zero => simp [stateAfter, and_comm]
    | succ m =>
      have notFirst : m + 1 ∉ (if state = none ∧ c = '?' then [0] else []) := by split <;> simp
      simp [notFirst, ih, stateAfter]

/-- A text without `?` has no placeholder. -/
theorem count_of_absent {s : String} (h : '?' ∉ s.toList) : count s = 0 := by
  have none : positions s = [] := by
    rw [List.eq_nil_iff_forall_not_mem]
    intro m hm
    obtain ⟨found, -⟩ := mem_positionsFrom.mp hm
    exact h (List.mem_of_getElem? found)
  rw [← length_positions, none, List.length_nil]

/-! ## Aligned texts -/

/-- What holds of the empty text and of concatenations holds of joined texts. -/
theorem intercalate_of_append {P : String → Prop} (empty : P "")
    (append : ∀ {a b : String}, P a → P b → P (a ++ b)) {separator : String} (hs : P separator)
    {items : List String} (h : ∀ s ∈ items, P s) : P (String.intercalate separator items) := by
  induction items with
  | nil => rwa [String.intercalate_nil]
  | cons s items ih =>
    have first : P s := h s List.mem_cons_self
    cases items with
    | nil => rwa [String.intercalate_singleton]
    | cons t items =>
      rw [String.intercalate_cons_cons]
      exact append (append first hs) (ih fun u hu => h u (List.mem_cons_of_mem s hu))

/-- Scanned from outside quotes, the text ends outside quotes and has `n` placeholders. -/
structure Aligned (s : String) (n : Nat) : Prop where
  /-- Every quote is closed. -/
  balanced : Balanced s
  /-- There are `n` placeholders. -/
  count : count s = n

instance (s : String) (n : Nat) : Decidable (Aligned s n) :=
  decidable_of_iff (Balanced s ∧ count s = n) ⟨fun h => ⟨h.1, h.2⟩, fun h => ⟨h.1, h.2⟩⟩

/-- A neutral text: it is balanced and has no placeholder. -/
abbrev Neutral (s : String) : Prop :=
  Aligned s 0

theorem Aligned.append {a b : String} {m n : Nat} (ha : Aligned a m) (hb : Aligned b n) :
    Aligned (a ++ b) (m + n) := by
  refine ⟨ha.balanced.append hb.balanced, ?_⟩
  rw [count_append ha.balanced, ha.count, hb.count]

/-- A neutral text before an aligned one. -/
theorem Aligned.prepend {a b : String} {n : Nat} (hb : Aligned b n) (ha : Neutral a) :
    Aligned (a ++ b) n := by
  have both := ha.append hb
  rwa [Nat.zero_add] at both

/-- Neutral texts joined by a neutral separator are neutral. -/
theorem Neutral.intercalate {separator : String} (hs : Neutral separator) {items : List String}
    (h : ∀ s ∈ items, Neutral s) : Neutral (String.intercalate separator items) :=
  intercalate_of_append (by decide) (fun ha hb => ha.append hb) hs h

/-- As many `?` as wanted, joined by commas, are as many placeholders. -/
theorem aligned_replicate (n : Nat) :
    Aligned (String.intercalate ", " (List.replicate n "?")) n := by
  induction n with
  | zero =>
    rw [List.replicate_zero, String.intercalate_nil]
    decide
  | succ n ih =>
    have slot : Aligned "?" 1 := by decide
    cases n with
    | zero => rwa [List.replicate_one, String.intercalate_singleton]
    | succ n =>
      have separator : Neutral ", " := by decide
      have total : n + 1 + 1 = 1 + 0 + (n + 1) := by omega
      rw [List.replicate_succ, List.replicate_succ, String.intercalate_cons_cons, total]
      exact (slot.append separator).append ih

/-! ## Hidden text -/

/-- No character of the text opens or closes quotes. -/
def QuoteFree (s : String) : Prop :=
  ∀ c ∈ s.toList, c ≠ '\'' ∧ c ≠ '"'

instance (s : String) : Decidable (QuoteFree s) :=
  List.decidableBAll _ s.toList

theorem QuoteFree.append {a b : String} (ha : QuoteFree a) (hb : QuoteFree b) :
    QuoteFree (a ++ b) := by
  intro c hc
  rw [String.toList_append, List.mem_append] at hc
  rcases hc with inFirst | inSecond
  · exact ha c inFirst
  · exact hb c inSecond

/-- The state is closed, or open with one of the two quotes. -/
def Reached (state : Option Char) : Prop :=
  ∀ q, state = some q → q = '\'' ∨ q = '"'

theorem reached_none : Reached none := by
  intro q h
  cases h

/-- One character leads from reached states to reached states. -/
theorem reached_step {state : Option Char} (h : Reached state) (c : Char) :
    Reached (step state c) := by
  intro q hq
  cases state with
  | none =>
    rw [step] at hq
    split at hq
    · next quote => cases hq; exact quote
    · cases hq
  | some r =>
    rw [step] at hq
    split at hq
    · cases hq
    · cases hq; exact h q rfl

/-- Every text leads from reached states to reached states. -/
theorem reached_stateAfter {state : Option Char} (h : Reached state) (cs : List Char) :
    Reached (stateAfter state cs) := by
  induction cs generalizing state with
  | nil => exact h
  | cons c rest ih => exact ih (reached_step h c)

/-- A character that is no quote changes no reached state. -/
theorem step_of_not_quote {state : Option Char} (h : Reached state) {c : Char}
    (hc : c ≠ '\'' ∧ c ≠ '"') : step state c = state := by
  cases state with
  | none => rw [step, if_neg fun quote => quote.elim hc.1 hc.2]
  | some q =>
    have ne : c ≠ q := by
      rcases h q rfl with rfl | rfl
      · exact hc.1
      · exact hc.2
    rw [step, if_neg ne]

/-- A text without quotes changes no reached state. -/
theorem stateAfter_of_quoteFree {state : Option Char} (h : Reached state) {cs : List Char}
    (free : ∀ c ∈ cs, c ≠ '\'' ∧ c ≠ '"') : stateAfter state cs = state := by
  induction cs with
  | nil => rfl
  | cons c rest ih =>
    rw [stateAfter, List.foldl_cons, step_of_not_quote h (free c List.mem_cons_self)]
    exact ih fun d hd => free d (List.mem_cons_of_mem c hd)

theorem QuoteFree.balanced {s : String} (h : QuoteFree s) : Balanced s :=
  stateAfter_of_quoteFree reached_none h

/-- Behind an open quote, a text without quotes has no placeholder. -/
theorem countFrom_of_quoteFree {q : Char} (h : Reached (some q)) {cs : List Char}
    (free : ∀ c ∈ cs, c ≠ '\'' ∧ c ≠ '"') : countFrom (some q) cs = 0 := by
  induction cs with
  | nil => rfl
  | cons c rest ih =>
    rw [countFrom, step_of_not_quote h (free c List.mem_cons_self),
      ih fun d hd => free d (List.mem_cons_of_mem c hd)]
    rfl

/-- **An unbalanced text hides what follows.**  Behind a neutral text and one that leaves a quote
open, a text without quotes adds no placeholder. -/
theorem count_of_not_balanced {a x b : String} (ha : Neutral a) (hx : ¬ Balanced x)
    (free : QuoteFree b) : count (a ++ x ++ b) = count x := by
  have closed : stateAfter none a.toList = none := ha.balanced
  cases state : stateAfter none x.toList with
  | none => exact absurd state hx
  | some q =>
    have reached : Reached (some q) := state ▸ reached_stateAfter reached_none x.toList
    have none := countFrom_of_quoteFree reached free
    rw [count, String.toList_append, String.toList_append, countFrom_append, stateAfter_append,
      closed, state, none, countFrom_append, closed, Nat.add_zero, ← count, ha.count, ← count,
      Nat.zero_add]

end BoundSql.Placeholder
