/-! # Blank characters

A character is blank when it has the Unicode property `White_Space`.  There are twenty-five of
them.  Names, aliases and filter fragments are refused when they hold nothing else, an alias that
holds one is quoted, and readers of SQL and of calendar text skip them.
-/

namespace BoundSql.Text

/-- The twenty-five characters with the property `White_Space`. -/
def isBlank (c : Char) : Bool :=
  let n := c.toNat
  (0x09 ≤ n && n ≤ 0x0D) || n == 0x20 || n == 0x85 || n == 0xA0 || n == 0x1680 ||
    (0x2000 ≤ n && n ≤ 0x200A) || n == 0x2028 || n == 0x2029 || n == 0x202F || n == 0x205F ||
    n == 0x3000

/-- The text without the blanks it starts with. -/
def dropBlanks (cs : List Char) : List Char :=
  cs.dropWhile isBlank

/-- Whether the text holds nothing but blanks; the empty text does. -/
def allBlank (s : String) : Bool :=
  s.toList.all isBlank

/-- Whether the text holds a blank. -/
def hasBlank (s : String) : Bool :=
  s.toList.any isBlank

/-! ### The property -/

/-- The code points with the property `White_Space`, one by one. -/
def whiteSpace : List Nat :=
  [0x09, 0x0A, 0x0B, 0x0C, 0x0D, 0x20, 0x85, 0xA0, 0x1680, 0x2000, 0x2001, 0x2002, 0x2003, 0x2004,
    0x2005, 0x2006, 0x2007, 0x2008, 0x2009, 0x200A, 0x2028, 0x2029, 0x202F, 0x205F, 0x3000]

/-- A character is blank just when its code point has the property. -/
theorem isBlank_iff {c : Char} : isBlank c = true ↔ c.toNat ∈ whiteSpace := by
  simp only [isBlank, whiteSpace, Bool.or_eq_true, Bool.and_eq_true, decide_eq_true_eq, beq_iff_eq,
    List.mem_cons, List.not_mem_nil, or_false]
  omega

theorem allBlank_eq_false_iff {s : String} :
    allBlank s = false ↔ ∃ c ∈ s.toList, c.toNat ∉ whiteSpace := by
  simp [allBlank, ← isBlank_iff]

theorem hasBlank_iff {s : String} : hasBlank s = true ↔ ∃ c ∈ s.toList, c.toNat ∈ whiteSpace := by
  simp [hasBlank, isBlank_iff]

end BoundSql.Text
