import BoundSql.Decimal.Binary

/-! # JSON values

A JSON number is an integer when it fits in 64 bits, signed or unsigned, and a double otherwise.
The members of an object have distinct names and stand in the order of the code points of their
names; inserting a member under a name that is already there replaces it.
-/

namespace BoundSql

/-- An integer that fits in 64 bits, signed or unsigned. -/
structure WideInt where
  val : Int
  lower : Int64.minValue.toInt ≤ val
  upper : val < UInt64.size
  deriving DecidableEq

/-- The integer as a wide one, if it fits. -/
def WideInt.ofInt? (i : Int) : Option WideInt :=
  if h : Int64.minValue.toInt ≤ i ∧ i < UInt64.size then some ⟨i, h.1, h.2⟩ else none

/-- A JSON value. -/
inductive Json where
  | null
  | bool (b : Bool)
  | integer (i : WideInt)
  | double (x : Double)
  | text (s : String)
  | array (items : List Json)
  | object (members : List (String × Json))

namespace Json

/-- Whether the first name stands before the second in an object. -/
def nameBefore (a b : String) : Bool :=
  decide (a.toList < b.toList)

/-- Put a member into members in order; a member of the same name is replaced. -/
def insert (name : String) (value : Json) : List (String × Json) → List (String × Json)
  | [] => [(name, value)]
  | (other, old) :: rest =>
    if name = other then (name, value) :: rest
    else if nameBefore name other then (name, value) :: (other, old) :: rest
    else (other, old) :: insert name value rest

/-- The object of members in any order; of members with one name the last one stays. -/
def ofMembers (members : List (String × Json)) : Json :=
  .object (members.foldl (fun sorted m => insert m.1 m.2 sorted) [])

mutual

/-- Equality of values: doubles are compared as numbers, and an integer never equals a double. -/
def equal : Json → Json → Bool
  | .null, .null => true
  | .bool a, .bool b => a == b
  | .integer a, .integer b => a.val == b.val
  | .double a, .double b => a.equal b
  | .text a, .text b => a == b
  | .array as, .array bs => equalItems as bs
  | .object as, .object bs => equalMembers as bs
  | _, _ => false

/-- Equality of the items of two arrays. -/
def equalItems : List Json → List Json → Bool
  | [], [] => true
  | a :: as, b :: bs => equal a b && equalItems as bs
  | _, _ => false

/-- Equality of the members of two objects. -/
def equalMembers : List (String × Json) → List (String × Json) → Bool
  | [], [] => true
  | (m, a) :: as, (n, b) :: bs => m == n && equal a b && equalMembers as bs
  | _, _ => false

end

mutual

/-- How deep arrays and objects nest. -/
def depth : Json → Nat
  | .array items => depthItems items + 1
  | .object members => depthMembers members + 1
  | _ => 0

/-- The greatest depth of the items. -/
def depthItems : List Json → Nat
  | [] => 0
  | v :: rest => max (depth v) (depthItems rest)

/-- The greatest depth of the members. -/
def depthMembers : List (String × Json) → Nat
  | [] => 0
  | (_, v) :: rest => max (depth v) (depthMembers rest)

end

/-- The number of a double, or null when it is not finite. -/
def ofDouble (x : Double) : Json :=
  if x.isFinite then .double x else .null

end Json

end BoundSql
