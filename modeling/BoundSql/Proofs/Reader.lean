import BoundSql.Proofs.Token

/-!
# Reading tokens back

A reader takes the tokens of a condition from left to right and builds a tree of calls.  It is a
machine with a stack: one level for each open parenthesis.  Two readers differ only in what OR does.

* `Binding.equal` — AND and OR bind equally and to the left, so OR takes what stands before it as
  its left operand, as AND does.
* `Binding.andFirst` — AND binds tighter than OR, as SQL has it, so OR closes the term before it and
  waits for another term.

For both, NOT binds the one operand after it, and parentheses group.

The first reader recovers the calls from their tokens (`Reader.read_equal_tokens`): that only right
operands and operands of NOT are put in parentheses is exactly what such a reader needs.

For the second, `Reads` states the rule of precedence as a grammar with four ranks, and
`Reads.read_eq` shows that the machine follows it; hence tokens have at most one reading.
-/

namespace BoundSql

/-- How AND and OR bind. -/
inductive Binding where
  /-- Equally, and to the left. -/
  | equal
  /-- AND binds tighter. -/
  | andFirst
  deriving DecidableEq, Repr

/-- A level of parentheses where the next operand is awaited: what becomes of the term once it is
complete, and what becomes of the operand. -/
structure Reader.Level (α : Type) where
  join : Condition α → Condition α
  hold : Condition α → Condition α

/-- A level where nothing has been read. -/
def Reader.Level.fresh {α : Type} : Reader.Level α where
  join := id
  hold := id

/-- A reader at work: it awaits an operand, or it holds a term; `outer` are the levels around. -/
inductive Reader (α : Type) where
  | waiting (level : Reader.Level α) (outer : List (Reader.Level α))
  | holding (join : Condition α → Condition α) (term : Condition α) (outer : List (Reader.Level α))

namespace Reader

variable {α : Type}

/-- What one more token does; `none` when it cannot stand here. -/
def step (b : Binding) : Reader α → Token α → Option (Reader α)
  | .waiting l outer, .atom a => some (.holding l.join (l.hold (.leaf a)) outer)
  | .waiting l outer, .not => some (.waiting ⟨l.join, fun x => l.hold (.not x)⟩ outer)
  | .waiting l outer, .opening => some (.waiting .fresh (l :: outer))
  | .holding join t outer, .and => some (.waiting ⟨join, .and t⟩ outer)
  | .holding join t outer, .or =>
    match b with
    | .equal => some (.waiting ⟨join, .or t⟩ outer)
    | .andFirst => some (.waiting ⟨.or (join t), id⟩ outer)
  | .holding join t (l :: outer), .closing => some (.holding l.join (l.hold (join t)) outer)
  | _, _ => none

/-- What tokens do, up to the first that cannot stand where it does. -/
def run (b : Binding) : Reader α → List (Token α) → Option (Reader α)
  | r, [] => some r
  | r, t :: ts => (r.step b t).bind fun r => r.run b ts

/-- The tree of a reader that holds a term outside all parentheses. -/
def result : Reader α → Option (Condition α)
  | .holding join t [] => some (join t)
  | _ => none

/-- The tree of calls that tokens show. -/
def read (b : Binding) (ts : List (Token α)) : Option (Condition α) :=
  (run b (.waiting .fresh []) ts).bind result

theorem run_append (b : Binding) (r : Reader α) (ts us : List (Token α)) :
    r.run b (ts ++ us) = (r.run b ts).bind fun r => r.run b us := by
  induction ts generalizing r with
  | nil => rfl
  | cons t ts ih =>
    rw [List.cons_append, run, run, Option.bind_assoc]
    exact congrArg _ (funext ih)

/-! ## Equal binding recovers the calls -/

/-- An operand that is read as one operand wherever one is awaited. -/
def IsOperand (b : Binding) (ts : List (Token α)) (q : Condition α) : Prop :=
  ∀ (l : Level α) (outer : List (Level α)),
    run b (.waiting l outer) ts = some (.holding l.join (l.hold q) outer)

/-- Parentheses make an operand of what a fresh level reads. -/
theorem isOperand_enclose {b : Binding} {ts : List (Token α)} {q : Condition α}
    (h : ∀ outer, ∃ join t, run b (.waiting .fresh outer) ts = some (.holding join t outer) ∧
      join t = q) : IsOperand b (.opening :: (ts ++ [.closing])) q := by
  intro l outer
  obtain ⟨join, t, inside, rfl⟩ := h (l :: outer)
  rw [run, step, Option.bind_some, run_append, inside]
  rfl

/-- NOT makes an operand of an operand. -/
theorem IsOperand.not {b : Binding} {ts : List (Token α)} {q : Condition α}
    (h : IsOperand b ts q) : IsOperand b (.not :: ts) (.not q) := by
  intro l outer
  rw [run, step, Option.bind_some, h]

/-- The tokens of a condition as an operand are read as one operand. -/
theorem isOperand_of_fresh {p : Condition α}
    (fresh : ∀ outer, run .equal (.waiting .fresh outer) p.tokens = some (.holding id p outer))
    (simple : p.isConnective = false → IsOperand .equal p.tokens p) :
    IsOperand .equal (Token.enclose p.isConnective p.tokens) p := by
  cases composite : p.isConnective with
  | false => exact simple composite
  | true => exact isOperand_enclose fun outer => ⟨id, p, fresh outer, rfl⟩

/-- A fresh level reads the tokens of a condition as that condition; they are one operand unless the
last call is an AND or an OR. -/
theorem run_equal_tokens (p : Condition α) :
    (∀ outer, run .equal (.waiting .fresh outer) p.tokens = some (.holding id p outer)) ∧
      (p.isConnective = false → IsOperand .equal p.tokens p) := by
  -- the left operand starts a level, so the first part is what it needs; the others need both
  induction p with
  | leaf a =>
    have operand : IsOperand .equal (Condition.leaf a).tokens (.leaf a) := fun _ _ => rfl
    exact ⟨fun outer => operand .fresh outer, fun _ => operand⟩
  | and p q hp hq =>
    refine ⟨fun outer => ?_, fun h => Bool.noConfusion h⟩
    rw [Condition.tokens, run_append, hp.1, Option.bind_some, run, step, Option.bind_some,
      isOperand_of_fresh hq.1 hq.2]
  | or p q hp hq =>
    refine ⟨fun outer => ?_, fun h => Bool.noConfusion h⟩
    rw [Condition.tokens, run_append, hp.1, Option.bind_some, run, step, Option.bind_some,
      isOperand_of_fresh hq.1 hq.2]
  | not p hp =>
    have operand : IsOperand .equal (Condition.not p).tokens (.not p) :=
      (isOperand_of_fresh hp.1 hp.2).not
    exact ⟨fun outer => operand .fresh outer, fun _ => operand⟩

/-- **Reading with equal binding recovers the calls from their tokens.** -/
theorem read_equal_tokens (p : Condition α) : read .equal p.tokens = some p := by
  rw [read, (run_equal_tokens p).1]
  rfl

end Reader

/-! ## The precedence of SQL -/

/-- The ranks of a condition, from the tightest. -/
inductive Rank where
  /-- An atom, or a condition in parentheses. -/
  | primary
  /-- A primary under any number of NOTs. -/
  | factor
  /-- Factors joined by AND. -/
  | term
  /-- Terms joined by OR. -/
  | condition
  deriving DecidableEq, Repr

/-- **The grammar of SQL conditions.**  Parentheses come first, then NOT, then AND, then OR; AND and
OR associate to the left.  `Reads r ts q` says that the tokens `ts` can be read as `q` at rank
`r`. -/
inductive Reads {α : Type} : Rank → List (Token α) → Condition α → Prop where
  | atom (a : α) : Reads .primary [.atom a] (.leaf a)
  | group {ts q} (inside : Reads .condition ts q) :
      Reads .primary (.opening :: (ts ++ [.closing])) q
  | primary {ts q} (h : Reads .primary ts q) : Reads .factor ts q
  | not {ts q} (h : Reads .factor ts q) : Reads .factor (.not :: ts) (.not q)
  | factor {ts q} (h : Reads .factor ts q) : Reads .term ts q
  | and {ts us q r} (left : Reads .term ts q) (right : Reads .factor us r) :
      Reads .term (ts ++ .and :: us) (.and q r)
  | term {ts q} (h : Reads .term ts q) : Reads .condition ts q
  | or {ts us q r} (left : Reads .condition ts q) (right : Reads .term us r) :
      Reads .condition (ts ++ .or :: us) (.or q r)

namespace Reads

variable {α : Type} {ts : List (Token α)} {q r : Condition α}

open Reader

/-- What the machine does with tokens that the grammar reads at each rank. -/
def Followed : Rank → List (Token α) → Condition α → Prop
  | .primary, ts, q | .factor, ts, q => IsOperand .andFirst ts q
  | .term, ts, q => ∀ join outer,
      run .andFirst (.waiting ⟨join, id⟩ outer) ts = some (.holding join q outer)
  | .condition, ts, q => ∀ outer, ∃ join t,
      run .andFirst (.waiting .fresh outer) ts = some (.holding join t outer) ∧ join t = q

/-- The machine follows the grammar, rank by rank. -/
theorem followed {rank : Rank} (h : Reads rank ts q) : Followed rank ts q := by
  -- each rank is read from any state that can await it, so that the next rank can go on from there
  induction h with
  | atom a => exact fun l outer => rfl
  | group inside ih => exact isOperand_enclose ih
  | primary h ih => exact ih
  | not h ih => exact IsOperand.not ih
  | factor h ih => exact fun join outer => ih ⟨join, id⟩ outer
  | @and ts us q r left right ihLeft ihRight =>
    intro join outer
    rw [run_append, ihLeft, Option.bind_some, run, step, Option.bind_some]
    exact ihRight ⟨join, .and q⟩ outer
  | @term ts q h ih => exact fun outer => ⟨id, q, ih id outer, rfl⟩
  | @or ts us q r left right ihLeft ihRight =>
    intro outer
    obtain ⟨join, t, seen, rfl⟩ := ihLeft outer
    refine ⟨.or (join t), r, ?_, rfl⟩
    rw [run_append, seen, Option.bind_some, run, step, Option.bind_some]
    exact ihRight _ outer

/-- The machine reads what the grammar reads. -/
theorem read_eq (h : Reads .condition ts q) : Reader.read .andFirst ts = some q := by
  obtain ⟨join, t, done, rfl⟩ := followed h []
  rw [Reader.read, done]
  rfl

/-- **Tokens have at most one reading.** -/
theorem unique (hq : Reads .condition ts q) (hr : Reads .condition ts r) : q = r :=
  Option.some.inj (hq.read_eq.symm.trans hr.read_eq)

end Reads

end BoundSql
