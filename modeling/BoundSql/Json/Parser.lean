import BoundSql.Json.Number

/-! # Reading JSON text

The reader takes the value that a text starts with and hands back the rest.  Arrays and objects may
nest 127 deep: the depth that is still allowed is the argument on which the reader recurses.  The
items of one array are counted off against the length of the text, which bounds them.

Blanks are the space, the tab, the line feed and the carriage return.  In strings, characters below
the space must be escaped, and an escaped surrogate must be half of a pair.
-/

namespace BoundSql.Json

/-- The blanks of JSON. -/
def isJsonBlank (c : Char) : Bool :=
  c == ' ' || c == '\t' || c == '\n' || c == '\r'

/-- The text without the blanks it starts with. -/
def skip (cs : List Char) : List Char :=
  cs.dropWhile isJsonBlank

/-! ### Strings -/

/-- The value of a hexadecimal digit of either case. -/
def hexValue? (c : Char) : Option Nat :=
  if '0' ≤ c ∧ c ≤ '9' then some (c.toNat - '0'.toNat)
  else if 'a' ≤ c ∧ c ≤ 'f' then some (c.toNat - 'a'.toNat + 10)
  else if 'A' ≤ c ∧ c ≤ 'F' then some (c.toNat - 'A'.toNat + 10)
  else none

/-- The number that four hexadecimal digits write. -/
def hexWord? (a b c d : Char) : Option Nat := do
  let a ← hexValue? a
  let b ← hexValue? b
  let c ← hexValue? c
  let d ← hexValue? d
  return ((a * 16 + b) * 16 + c) * 16 + d

/-- The character that a letter stands for after a backslash. -/
def unescape? (c : Char) : Option Char :=
  if c = '"' then some '"'
  else if c = '\\' then some '\\'
  else if c = '/' then some '/'
  else if c = 'b' then some '\x08'
  else if c = 'f' then some '\x0c'
  else if c = 'n' then some '\n'
  else if c = 'r' then some '\r'
  else if c = 't' then some '\t'
  else none

/-- Read a string after its opening quote; at most `fuel` characters or escapes. -/
def readString? : (fuel : Nat) → List Char → Option (List Char × List Char)
  | 0, _ => none
  | _ + 1, [] => none
  | _ + 1, '"' :: rest => some ([], rest)
  | fuel + 1, '\\' :: 'u' :: a :: b :: c :: d :: rest => do
    let unit ← hexWord? a b c d
    if 0xD800 ≤ unit ∧ unit < 0xDC00 then
      match rest with
      | '\\' :: 'u' :: e :: f :: g :: h :: rest => do
        let second ← hexWord? e f g h
        if 0xDC00 ≤ second ∧ second < 0xE000 then
          let (tail, after) ← readString? fuel rest
          let code := 0x10000 + (unit - 0xD800) * 0x400 + (second - 0xDC00)
          return (Char.ofNat code :: tail, after)
        else none
      | _ => none
    else if 0xDC00 ≤ unit ∧ unit < 0xE000 then none
    else do
      let (tail, after) ← readString? fuel rest
      return (Char.ofNat unit :: tail, after)
  | fuel + 1, '\\' :: letter :: rest => do
    let c ← unescape? letter
    let (tail, after) ← readString? fuel rest
    return (c :: tail, after)
  | fuel + 1, c :: rest =>
    if c = '\\' ∨ c.toNat < 0x20 then none
    else do
      let (tail, after) ← readString? fuel rest
      return (c :: tail, after)

/-! ### Values -/

/-- A reader of the value that a text starts with. -/
abbrev Reader := List Char → Option (Json × List Char)

/-- Read items after the first `[` or a comma, up to the closing bracket. -/
def readItems? (value : Reader) : (fuel : Nat) → List Char → Option (List Json × List Char)
  | 0, _ => none
  | fuel + 1, cs => do
    let (v, rest) ← value (skip cs)
    match skip rest with
    | ']' :: after => return ([v], after)
    | ',' :: more => do
      let (items, after) ← readItems? value fuel more
      return (v :: items, after)
    | _ => none

/-- Read one member: a name, a colon and a value. -/
def readMember? (value : Reader) (cs : List Char) : Option ((String × Json) × List Char) :=
  match skip cs with
  | '"' :: rest => do
    let (name, afterName) ← readString? (rest.length + 1) rest
    match skip afterName with
    | ':' :: more => do
      let (v, after) ← value (skip more)
      return ((String.ofList name, v), after)
    | _ => none
  | _ => none

/-- Read members after the opening brace or a comma, up to the closing brace. -/
def readMembers? (value : Reader) :
    (fuel : Nat) → List Char → Option (List (String × Json) × List Char)
  | 0, _ => none
  | fuel + 1, cs => do
    let (m, rest) ← readMember? value cs
    match skip rest with
    | '\x7d' :: after => return ([m], after)
    | ',' :: more => do
      let (members, after) ← readMembers? value fuel more
      return (m :: members, after)
    | _ => none

/-- The members of the object that a text starts with, as they stand there. -/
def readObject? (value : Reader) (cs : List Char) : Option (List (String × Json) × List Char) :=
  match cs with
  | '\x7b' :: rest =>
    match skip rest with
    | '\x7d' :: after => some ([], after)
    | _ => readMembers? value (rest.length + 1) rest
  | _ => none

/-- Read a value that is neither an array nor an object. -/
def readScalar? : List Char → Option (Json × List Char)
  | 'n' :: 'u' :: 'l' :: 'l' :: rest => some (.null, rest)
  | 't' :: 'r' :: 'u' :: 'e' :: rest => some (.bool true, rest)
  | 'f' :: 'a' :: 'l' :: 's' :: 'e' :: rest => some (.bool false, rest)
  | '"' :: rest => do
    let (s, after) ← readString? (rest.length + 1) rest
    return (.text (String.ofList s), after)
  | cs => readNumber? cs

/-- Read the value that a text starts with; arrays and objects nest at most `depth` deep. -/
def readValue? : (depth : Nat) → Reader
  | 0, cs =>
    match cs with
    | '[' :: _ => none
    | '\x7b' :: _ => none
    | _ => readScalar? cs
  | depth + 1, cs =>
    match cs with
    | '[' :: rest =>
      match skip rest with
      | ']' :: after => some (.array [], after)
      | _ => do
        let (items, after) ← readItems? (readValue? depth) (rest.length + 1) rest
        return (.array items, after)
    | '\x7b' :: _ => do
      let (members, after) ← readObject? (readValue? depth) cs
      return (ofMembers members, after)
    | _ => readScalar? cs

/-- How deep arrays and objects may nest. -/
def depthLimit : Nat := 127

/-- The value that a whole text writes, blanks around it allowed. -/
def parse? (s : String) : Option Json := do
  let (v, rest) ← readValue? depthLimit (skip s.toList)
  if skip rest = [] then some v else none

end BoundSql.Json
