import BoundSql.Text.Utf8
import BoundSql.Json.Printer
import BoundSql.Json.Parser

/-! # UUIDs

Sixteen bytes, written as 32 lower-case hexadecimal digits in groups of 8, 4, 4, 4 and 12.

Four shapes of text are read: 32 digits without hyphens, the hyphenated form, the hyphenated form in
braces, and the hyphenated form after `urn:uuid:`.  Of a text with one of the last three lengths
only the hyphenated part is examined when it turns out wrong; of any other text the whole, though
braces around it or a leading `urn:uuid:` are not part of its groups.  The letters of `urn:uuid:`
may be of either case.  Positions and lengths count bytes.
-/

namespace BoundSql

/-- Sixteen bytes. -/
structure Uuid where
  bytes : List UInt8
  length_eq : bytes.length = 16
  deriving DecidableEq

namespace Uuid

/-- Why a text or a byte sequence is no UUID. -/
inductive Fault where
  | length (found : Nat)
  | character (c : Char) (position : Nat)
  | groupCount (found : Nat)
  | groupLength (group expected found : Nat)
  | byteCount (found : Nat)
  deriving DecidableEq, Repr

/-- The wording of a fault. -/
def Fault.message : Fault → String
  | .length found => "invalid length: found " ++ Decimal.natural found
  | .character c position =>
    "invalid character: found \x60" ++ String.singleton c ++ "\x60 at " ++ Decimal.natural position
  | .groupCount found => "invalid group count: expected 5, found " ++ Decimal.natural found
  | .groupLength group expected found =>
    "invalid group length in group " ++ Decimal.natural group ++ ": expected " ++
      Decimal.natural expected ++ ", found " ++ Decimal.natural found
  | .byteCount found => "invalid length: expected 16 bytes, found " ++ Decimal.natural found

/-! ### Writing -/

/-- The two digits of a byte. -/
def byteDigits (b : UInt8) : List Char :=
  [Json.hexDigit (b.toNat / 16), Json.hexDigit (b.toNat % 16)]

/-- The digits of bytes. -/
def hexDigits (bytes : List UInt8) : List Char :=
  bytes.flatMap byteDigits

/-- The hyphenated text. -/
def hyphenated (u : Uuid) : List Char :=
  let group (start count : Nat) := hexDigits ((u.bytes.drop start).take count)
  group 0 4 ++ '-' :: (group 4 2 ++ '-' :: (group 6 2 ++ '-' :: (group 8 2 ++ '-' :: group 10 6)))

/-- The hyphenated text. -/
def text (u : Uuid) : String :=
  String.ofList u.hyphenated

/-! ### Reading -/

/-- The bytes that pairs of hexadecimal digits write. -/
def bytesOfHex? : List Char → Option (List UInt8)
  | [] => some []
  | [_] => none
  | a :: b :: rest => do
    let high ← Json.hexValue? a
    let low ← Json.hexValue? b
    let bytes ← bytesOfHex? rest
    return UInt8.ofNat (high * 16 + low) :: bytes

/-- The UUID of sixteen bytes. -/
def ofBytes? (bytes : List UInt8) : Option Uuid :=
  if h : bytes.length = 16 then some ⟨bytes, h⟩ else none

/-- The UUID of a blob. -/
def ofBlob (bytes : List UInt8) : Except Fault Uuid :=
  match ofBytes? bytes with
  | some u => .ok u
  | none => .error (.byteCount bytes.length)

/-- The UUID of 32 digits. -/
def ofDigits? (cs : List Char) : Option Uuid :=
  bytesOfHex? cs >>= ofBytes?

/-- The digits of the hyphenated form, when hyphens stand in the four places. -/
def withoutHyphens? (cs : List Char) : Option (List Char) :=
  if cs.length = 36 ∧ [8, 13, 18, 23].all (fun i => cs[i]? == some '-') then
    some (cs.take 8 ++ ((cs.drop 9).take 4 ++ ((cs.drop 14).take 4 ++ ((cs.drop 19).take 4 ++
      cs.drop 24))))
  else none

/-- The UUID of the hyphenated form. -/
def ofHyphenated? (cs : List Char) : Option Uuid :=
  withoutHyphens? cs >>= ofDigits?

/-- What follows `urn:uuid:`, whose letters may be of either case. -/
def afterUrn? (cs : List Char) : Option (List Char) :=
  if (cs.take 9).map Char.toLower = "urn:uuid:".toList then some (cs.drop 9) else none

/-- What stands between braces. -/
def insideBraces? : List Char → Option (List Char)
  | '\x7b' :: rest => if rest.getLast? = some '\x7d' then some rest.dropLast else none
  | _ => none

/-- A text that may hold a hyphenated UUID: the part that would be it. -/
def hyphenatedPart? (cs : List Char) : Option (List Char) :=
  match Utf8.length cs with
  | 36 => some cs
  | 38 => insideBraces? cs
  | 45 => afterUrn? cs
  | _ => none

/-- The first character that is neither a hexadecimal digit nor a hyphen, with its position. -/
def strayFrom (position : Nat) : List Char → Option (Char × Nat)
  | [] => none
  | c :: rest =>
    if c = '-' ∨ (Json.hexValue? c).isSome then strayFrom (position + c.utf8Size) rest
    else some (c, position)

/-- The positions of the hyphens. -/
def hyphensFrom (position : Nat) : List Char → List Nat
  | [] => []
  | c :: rest =>
    (if c = '-' then [position] else []) ++ hyphensFrom (position + c.utf8Size) rest

/-- The first group whose hyphen is out of place, for groups that start at 0, 9, 14 and 19. -/
def badGroup? (hyphens : List Nat) : Option Fault :=
  let groups := [(0, 0, 8), (1, 9, 4), (2, 14, 4), (3, 19, 4)]
  (groups.zip hyphens).findSome? fun ((group, start, expected), position) =>
    if position = start + expected then none
    else some (.groupLength group expected (position - start))

/-- What is wrong with an examined text of `size` bytes.  The groups stand in `part`, which starts
`offset` bytes into it; `grouped` tells that a wrapper or a length asked for groups. -/
def diagnose (size offset : Nat) (grouped : Bool) (part : List Char) : Fault :=
  match strayFrom offset part with
  | some (c, position) => .character c position
  | none =>
    let hyphens := hyphensFrom 0 part
    if hyphens = [] ∧ !grouped then .length size
    else if hyphens.length ≠ 4 then .groupCount (hyphens.length + 1)
    else
      match badGroup? hyphens with
      | some fault => fault
      | none => .groupLength 4 12 (size - 24)

/-- Why a text of none of the four shapes is refused. -/
def diagnoseWhole (cs : List Char) : Fault :=
  let size := Utf8.length cs
  if size = 0 ∨ 45 < size then .length size
  else
    match insideBraces? cs with
    | some part => diagnose size 1 true part
    | none =>
      match afterUrn? cs with
      | some part => diagnose size 9 true part
      | none => diagnose size 0 false cs

/-- Read a UUID. -/
def read (s : String) : Except Fault Uuid :=
  let cs := s.toList
  match hyphenatedPart? cs with
  | some part =>
    match ofHyphenated? part with
    | some u => .ok u
    | none => .error (diagnose (Utf8.length part) 0 true part)
  | none =>
    match (if Utf8.length cs = 32 then ofDigits? cs else none) with
    | some u => .ok u
    | none => .error (diagnoseWhole cs)

end Uuid

end BoundSql
