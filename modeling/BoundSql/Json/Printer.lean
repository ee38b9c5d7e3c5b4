import BoundSql.Json.Basic
import BoundSql.Decimal.Layout

/-! # Compact JSON text

No blanks, members in order, integers in decimal, doubles in the data layout.  A string escapes the
quote, the backslash and the characters below the space, and nothing else.
-/

namespace BoundSql.Json

/-- The lower-case hexadecimal digit of a number below sixteen. -/
def hexDigit (n : Nat) : Char :=
  if n < 10 then Char.ofNat ('0'.toNat + n) else Char.ofNat ('a'.toNat + (n - 10))

/-- A character as it stands in a string. -/
def escape (c : Char) : List Char :=
  if c = '"' then ['\\', '"']
  else if c = '\\' then ['\\', '\\']
  else if c = '\n' then ['\\', 'n']
  else if c = '\t' then ['\\', 't']
  else if c = '\r' then ['\\', 'r']
  else if c = '\x08' then ['\\', 'b']
  else if c = '\x0c' then ['\\', 'f']
  else if c.toNat < 0x20 then
    ['\\', 'u', '0', '0', hexDigit (c.toNat / 16), hexDigit (c.toNat % 16)]
  else [c]

/-- A string between its quotes. -/
def renderString (s : String) : List Char :=
  '"' :: (s.toList.flatMap escape ++ ['"'])

mutual

/-- The compact text of a value. -/
def render : Json → List Char
  | .null => ['n', 'u', 'l', 'l']
  | .bool true => ['t', 'r', 'u', 'e']
  | .bool false => ['f', 'a', 'l', 's', 'e']
  | .integer i => (Decimal.integer i.val).toList
  | .double x => (Decimal.Layout.data.finite x).toList
  | .text s => renderString s
  | .array items => '[' :: (renderItems items ++ [']'])
  | .object members => '\x7b' :: (renderMembers members ++ ['\x7d'])

/-- Items with commas between them. -/
def renderItems : List Json → List Char
  | [] => []
  | v :: rest => render v ++ renderMoreItems rest

/-- Items with a comma before each. -/
def renderMoreItems : List Json → List Char
  | [] => []
  | v :: rest => ',' :: (render v ++ renderMoreItems rest)

/-- Members with commas between them. -/
def renderMembers : List (String × Json) → List Char
  | [] => []
  | (name, v) :: rest => renderString name ++ ':' :: (render v ++ renderMoreMembers rest)

/-- Members with a comma before each. -/
def renderMoreMembers : List (String × Json) → List Char
  | [] => []
  | (name, v) :: rest => ',' :: (renderString name ++ ':' :: (render v ++ renderMoreMembers rest))

end

/-- The compact text of a value. -/
def compact (v : Json) : String :=
  String.ofList (render v)

end BoundSql.Json
