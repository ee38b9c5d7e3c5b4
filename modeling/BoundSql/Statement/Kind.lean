import BoundSql.Text.Blank
import BoundSql.Text.Utf8

/-! # Statement kinds

The kind of a statement is read off its first word.  Blanks and comments before it are skipped: a
line comment ends with its line, a block comment with the first `*/` after its opener, and an
unfinished comment leaves nothing.  The word counts in any case, and a letter, digit or underscore
right after it makes it another word.

The reader `ofSql` is a machine with three places, which knows characters.  The same reader as a
loop of rounds, each of which drops blanks and one comment, with the word cut off by its bytes, is
`detect?`; it has no answer where a cut would go through a character.
-/

namespace BoundSql

/-- What a statement does; `other` is anything else. -/
inductive Kind where
  | select
  | insert
  | update
  | delete
  | other
  deriving DecidableEq, Repr

namespace Kind

/-- The word that shows a kind. -/
def text : Kind → String
  | .select => "SELECT"
  | .insert => "INSERT"
  | .update => "UPDATE"
  | .delete => "DELETE"
  | .other => "OTHER"

/-- Where a reader of SQL stands: in the statement, in a line comment or in a block comment. -/
inductive Place where
  | statement
  | line
  | block
  deriving DecidableEq, Repr

/-- What is left when the blanks and comments in front are skipped, from a place on. -/
def skipFrom : Place → List Char → List Char
  | _, [] => []
  | .statement, '-' :: '-' :: rest => skipFrom .line rest
  | .statement, '/' :: '*' :: rest => skipFrom .block rest
  | .statement, c :: rest => if Text.isBlank c then skipFrom .statement rest else c :: rest
  | .line, c :: rest => if c = '\n' then skipFrom .statement rest else skipFrom .line rest
  | .block, '*' :: '/' :: rest => skipFrom .statement rest
  | .block, _ :: rest => skipFrom .block rest

/-- What follows the blanks and comments that a text starts with. -/
def body (cs : List Char) : List Char :=
  skipFrom .statement cs

/-- Whether a character continues a word. -/
def continuesWord (c : Char) : Bool :=
  c.isAlphanum || c == '_'

/-- Whether the text starts with the word, in any case. -/
def startsWith (word cs : List Char) : Bool :=
  (cs.take word.length).map Char.toUpper == word &&
    (match cs.drop word.length with
      | [] => true
      | c :: _ => !continuesWord c)

/-- The kind of the statement that a text holds. -/
def ofSql (sql : String) : Kind :=
  let cs := body sql.toList
  if startsWith "SELECT".toList cs then .select
  else if startsWith "INSERT".toList cs then .insert
  else if startsWith "UPDATE".toList cs then .update
  else if startsWith "DELETE".toList cs then .delete
  else .other

/-! ### Rounds and bytes -/

/-- What follows the first newline. -/
def afterLine (cs : List Char) : List Char :=
  (cs.dropWhile (· != '\n')).drop 1

/-- What follows the first `*/`. -/
def afterBlock : List Char → List Char
  | [] => []
  | '*' :: '/' :: rest => rest
  | _ :: rest => afterBlock rest

/-- What follows a comment that the text starts with. -/
def afterComment? : List Char → Option (List Char)
  | '-' :: '-' :: rest => some (afterLine rest)
  | '/' :: '*' :: rest => some (afterBlock rest)
  | _ => none

theorem length_afterLine_le (cs : List Char) : (afterLine cs).length ≤ cs.length :=
  Nat.le_trans (List.drop_suffix 1 _).length_le (List.dropWhile_suffix _).length_le

theorem length_afterBlock_le (cs : List Char) : (afterBlock cs).length ≤ cs.length := by
  fun_induction afterBlock cs with
  | case1 => exact Nat.le_refl 0
  | case2 rest => exact Nat.le_trans (Nat.le_succ _) (Nat.le_succ _)
  | case3 c rest inside ih => exact Nat.le_trans ih (Nat.le_succ _)

/-- Every round gets further. -/
theorem length_afterComment?_lt {cs rest : List Char} (h : afterComment? cs = some rest) :
    rest.length < cs.length := by
  unfold afterComment? at h
  split at h
  · next inside =>
    cases h
    have less := length_afterLine_le inside
    simp only [List.length_cons]
    omega
  · next inside =>
    cases h
    have less := length_afterBlock_le inside
    simp only [List.length_cons]
    omega
  · cases h

/-- What is left when rounds of blanks and one comment are skipped, as long as there is a
comment. -/
def skipRounds (cs : List Char) : List Char :=
  match _h : afterComment? (Text.dropBlanks cs) with
  | some rest => skipRounds rest
  | none => Text.dropBlanks cs
termination_by cs.length
decreasing_by
  have less := length_afterComment?_lt _h
  exact Nat.lt_of_lt_of_le less (List.dropWhile_suffix _).length_le

/-- Whether the text starts with the word, in any case, when both are cut by bytes.  The rest of the
text is asked for only after the bytes in front have matched; no answer would mean that it is asked
for where it cannot be cut off. -/
def startsAt? (word cs : List Char) : Option Bool :=
  match (Utf8.partAt? (Utf8.length word) cs).map Prod.fst with
  | none => some false
  | some first =>
    if first.map Char.toUpper = word then
      ((Utf8.partAt? (Utf8.length word) cs).map Prod.snd).map fun rest =>
        match rest with
        | [] => true
        | c :: _ => !continuesWord c
    else some false

/-- The kind of the statement that a text holds, read in rounds and by bytes. -/
def detect? (sql : String) : Option Kind := do
  let cs := skipRounds sql.toList
  if ← startsAt? Kind.select.text.toList cs then return .select
  if ← startsAt? Kind.insert.text.toList cs then return .insert
  if ← startsAt? Kind.update.text.toList cs then return .update
  if ← startsAt? Kind.delete.text.toList cs then return .delete
  return .other

end Kind

end BoundSql
