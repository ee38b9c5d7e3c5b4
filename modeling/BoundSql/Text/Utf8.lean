import BoundSql.Decimal.Digits

/-! # UTF-8

Lengths of SQL text and of error messages are counted in UTF-8 bytes, and a text is cut only
between characters.  This module measures, cuts, writes and reads UTF-8.

A text is cut by its characters (`cut`), or by its bytes alone: start at the limit, step back to an
index that stands between characters, and take the bytes in front of it (`cutBytes?`).  The second
way has no answer where it would go through a character.

`decode` reads one byte at a time.  A lead byte says how many continuation bytes must follow and
which values the first of them may take; this rules out overlong forms, surrogates and code points
past the last one.  A failure tells where the unfinished character starts and how many of its bytes
were still acceptable.
-/

namespace BoundSql.Utf8

/-! ### Length and cut -/

/-- The number of bytes that the characters take. -/
def length : List Char → Nat
  | [] => 0
  | c :: rest => c.utf8Size + length rest

/-- The longest run of leading characters that fits in `budget` bytes. -/
def take : Nat → List Char → List Char
  | _, [] => []
  | budget, c :: rest =>
    if c.utf8Size ≤ budget then c :: take (budget - c.utf8Size) rest else []

/-- The number of bytes of a text. -/
def size (s : String) : Nat :=
  length s.toList

/-- The text shortened to at most `limit` bytes, without splitting a character. -/
def cut (s : String) (limit : Nat) : String :=
  String.ofList (take limit s.toList)

/-- The text itself when it has at most `limit` bytes, otherwise its cut followed by three
dots. -/
def cutWithDots (s : String) (limit : Nat) : String :=
  if size s ≤ limit then s else cut s limit ++ "..."

/-- A text in two parts, the first of which takes a number of bytes.  There are none when the text
is shorter, or when the cut would go through a character. -/
def partAt? : Nat → List Char → Option (List Char × List Char)
  | 0, cs => some ([], cs)
  | _ + 1, [] => none
  | n + 1, c :: cs =>
    if c.utf8Size ≤ n + 1 then
      (partAt? (n + 1 - c.utf8Size) cs).map fun parts => (c :: parts.1, parts.2)
    else none

/-! ### Bytes -/

/-- The byte of a number below 256. -/
def byte (n : Nat) : UInt8 :=
  UInt8.ofNat n

/-- The bytes of a character: one to four, by its code point. -/
def encodeChar (c : Char) : List UInt8 :=
  let n := c.toNat
  if n < 0x80 then [byte n]
  else if n < 0x800 then [byte (0xC0 + n / 64), byte (0x80 + n % 64)]
  else if n < 0x10000 then
    [byte (0xE0 + n / 4096), byte (0x80 + n / 64 % 64), byte (0x80 + n % 64)]
  else
    [byte (0xF0 + n / 262144), byte (0x80 + n / 4096 % 64), byte (0x80 + n / 64 % 64),
      byte (0x80 + n % 64)]

/-- The bytes of a text. -/
def encode (s : String) : List UInt8 :=
  s.toList.flatMap encodeChar

/-! ### Cutting bytes -/

/-- A byte that goes on with a character. -/
def continues (b : UInt8) : Bool :=
  0x80 ≤ b.toNat && b.toNat < 0xC0

/-- Whether an index stands between characters: at the start, at the end, or in front of a byte that
does not go on with a character. -/
def isBoundary (bytes : List UInt8) (index : Nat) : Bool :=
  index == 0 ||
    match bytes[index]? with
    | some b => !continues b
    | none => index == bytes.length

/-- The closest boundary at or before an index. -/
def stepBack (bytes : List UInt8) : Nat → Nat
  | 0 => 0
  | index + 1 => if isBoundary bytes (index + 1) then index + 1 else stepBack bytes index

/-- The bytes in front of an index, if it stands between characters. -/
def slice? (bytes : List UInt8) (index : Nat) : Option (List UInt8) :=
  if isBoundary bytes index then some (bytes.take index) else none

/-- The bytes themselves when there are at most `limit`, otherwise those in front of the closest
boundary. -/
def cutBytes? (bytes : List UInt8) (limit : Nat) : Option (List UInt8) :=
  if bytes.length ≤ limit then some bytes else slice? bytes (stepBack bytes limit)

/-! ### Reading bytes -/

/-- Why a byte sequence is no text. -/
inductive Fault where
  /-- From `start` on, `accepted` bytes begin no character. -/
  | invalid (accepted start : Nat)
  /-- The bytes end inside the character that starts at `start`. -/
  | incomplete (start : Nat)
  deriving DecidableEq, Repr

/-- The wording of a fault. -/
def Fault.message : Fault → String
  | .invalid accepted start =>
    "invalid utf-8 sequence of " ++ Decimal.natural accepted ++ " bytes from index " ++
      Decimal.natural start
  | .incomplete start => "incomplete utf-8 byte sequence from index " ++ Decimal.natural start

/-- What a lead byte announces: the continuation bytes that follow, the values that the first of
them may take, and the bits of the code point that the lead byte holds. -/
structure Lead where
  owed : Nat
  low : Nat
  high : Nat
  bits : Nat

/-- The lead byte table; `none` for a byte that starts no character. -/
def lead? (b : UInt8) : Option Lead :=
  let n := b.toNat
  if n < 0x80 then some ⟨0, 0x80, 0xBF, n⟩
  else if n < 0xC2 then none
  else if n < 0xE0 then some ⟨1, 0x80, 0xBF, n - 0xC0⟩
  else if n = 0xE0 then some ⟨2, 0xA0, 0xBF, 0⟩
  else if n = 0xED then some ⟨2, 0x80, 0x9F, 0x0D⟩
  else if n < 0xF0 then some ⟨2, 0x80, 0xBF, n - 0xE0⟩
  else if n = 0xF0 then some ⟨3, 0x90, 0xBF, 0⟩
  else if n < 0xF4 then some ⟨3, 0x80, 0xBF, n - 0xF0⟩
  else if n = 0xF4 then some ⟨3, 0x80, 0x8F, 4⟩
  else none

/-- A character of which `seen` bytes were read and `owed` are still to come. -/
structure Unfinished where
  start : Nat
  seen : Nat
  owed : Nat
  low : Nat
  high : Nat
  code : Nat

/-- Read bytes, the first of which has index `index`, either between characters or inside one. -/
def decodeFrom (index : Nat) : Option Unfinished → List UInt8 → Except Fault (List Char)
  | none, [] => .ok []
  | some u, [] => .error (.incomplete u.start)
  | none, b :: rest =>
    match lead? b with
    | none => .error (.invalid 1 index)
    | some l =>
      if l.owed = 0 then
        (decodeFrom (index + 1) none rest).map (Char.ofNat l.bits :: ·)
      else
        decodeFrom (index + 1) (some ⟨index, 1, l.owed, l.low, l.high, l.bits⟩) rest
  | some u, b :: rest =>
    if u.low ≤ b.toNat ∧ b.toNat ≤ u.high then
      let code := u.code * 64 + b.toNat % 64
      if u.owed = 1 then
        (decodeFrom (index + 1) none rest).map (Char.ofNat code :: ·)
      else
        decodeFrom (index + 1) (some ⟨u.start, u.seen + 1, u.owed - 1, 0x80, 0xBF, code⟩) rest
    else .error (.invalid u.seen u.start)

/-- The text that the bytes write, or why they write none. -/
def decode (bytes : List UInt8) : Except Fault String :=
  (decodeFrom 0 none bytes).map String.ofList

/-! ### Laws of the cut -/

theorem take_append_drop (budget : Nat) (cs : List Char) :
    ∃ rest, take budget cs ++ rest = cs := by
  induction cs generalizing budget with
  | nil => exact ⟨[], rfl⟩
  | cons c cs ih =>
    by_cases h : c.utf8Size ≤ budget
    · obtain ⟨rest, split⟩ := ih (budget - c.utf8Size)
      exact ⟨rest, by simp [take, h, split]⟩
    · exact ⟨c :: cs, by simp [take, h]⟩

theorem length_take_le (budget : Nat) (cs : List Char) : length (take budget cs) ≤ budget := by
  induction cs generalizing budget with
  | nil => simp [take, length]
  | cons c cs ih =>
    by_cases h : c.utf8Size ≤ budget
    · have := ih (budget - c.utf8Size)
      simp only [take, h, if_true, length]
      omega
    · simp [take, h, length]

theorem take_eq_self {budget : Nat} {cs : List Char} (h : length cs ≤ budget) :
    take budget cs = cs := by
  induction cs generalizing budget with
  | nil => rfl
  | cons c cs ih =>
    simp only [length] at h
    have fits : c.utf8Size ≤ budget := by omega
    simp [take, fits, ih (by omega : length cs ≤ budget - c.utf8Size)]

end BoundSql.Utf8
