/-! # Placeholders

A `?` outside quotes is a placeholder: the connection binds one parameter to it.  The scanner reads
a text from left to right and knows only whether it stands inside quotes and which quote opened
them; the same quote closes them.  It knows no escapes and no comments.

The bytes of a text can be scanned without reading them as characters (`scan`).  Such a scan keeps
the open quote as a byte, zero when there is none, and a running count.

Because the state is one optional character, scanning a concatenation is scanning the parts in turn
(`stateAfter_append`, `countFrom_append`).
-/

namespace BoundSql.Placeholder

/-- The quote that is open after one more character. -/
def step : Option Char → Char → Option Char
  | some q, c => if c = q then none else some q
  | none, c => if c = '\'' ∨ c = '"' then some c else none

/-- The quote that is open after a text. -/
def stateAfter (state : Option Char) (cs : List Char) : Option Char :=
  cs.foldl step state

/-- The placeholders of a text that starts in `state`. -/
def countFrom : Option Char → List Char → Nat
  | _, [] => 0
  | state, c :: rest =>
    (if state = none ∧ c = '?' then 1 else 0) + countFrom (step state c) rest

/-- The number of placeholders of a text. -/
def count (s : String) : Nat :=
  countFrom none s.toList

/-- A text is balanced when every quote that it opens is closed. -/
def Balanced (s : String) : Prop :=
  stateAfter none s.toList = none

instance (s : String) : Decidable (Balanced s) :=
  inferInstanceAs (Decidable (_ = _))

/-! ### Bytes -/

/-- Where a scan of bytes stands: the quote that is open, zero when there is none, and the number of
placeholders so far. -/
structure Scan where
  quote : UInt8
  count : Nat
  deriving DecidableEq

namespace Scan

/-- The scan after one more byte. -/
def next (s : Scan) (b : UInt8) : Scan :=
  if s.quote ≠ 0 then
    if b = s.quote then { s with quote := 0 } else s
  else if b = 0x27 ∨ b = 0x22 then { s with quote := b }
  else if b = 0x3F then { s with count := s.count + 1 }
  else s

end Scan

/-- The scan of the bytes of a text that starts with a quote open, or with none. -/
def scanFrom (quote : UInt8) (s : String) : Scan :=
  s.toUTF8.data.toList.foldl Scan.next ⟨quote, 0⟩

/-- The scan of the bytes of a text. -/
def scan (s : String) : Scan :=
  scanFrom 0 s

/-! ### Parts of a text -/

theorem stateAfter_append (state : Option Char) (a b : List Char) :
    stateAfter state (a ++ b) = stateAfter (stateAfter state a) b :=
  List.foldl_append

theorem countFrom_append (state : Option Char) (a b : List Char) :
    countFrom state (a ++ b) = countFrom state a + countFrom (stateAfter state a) b := by
  induction a generalizing state with
  | nil => simp [countFrom, stateAfter]
  | cons c a ih =>
    simp only [List.cons_append, countFrom, ih, stateAfter, List.foldl_cons]
    omega

theorem count_append {a b : String} (h : Balanced a) : count (a ++ b) = count a + count b := by
  have : stateAfter none a.toList = none := h
  simp [count, countFrom_append, this]

theorem Balanced.append {a b : String} (ha : Balanced a) (hb : Balanced b) : Balanced (a ++ b) := by
  have ha' : stateAfter none a.toList = none := ha
  have hb' : stateAfter none b.toList = none := hb
  simp [Balanced, stateAfter_append, ha', hb']

end BoundSql.Placeholder
