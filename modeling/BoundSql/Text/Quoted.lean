/-! # Quoted text

A quoted text stands between two quotes, and a quote inside it is written twice.  Text literals use
the single quote, aliases the double quote.

`isQuoted` recognises quoted text by its ends and by what is left of its inside when pairs of quotes
are removed from left to right: no quote may remain.
-/

namespace BoundSql.Quoted

/-- Every quote written twice. -/
def double (q : Char) : List Char → List Char
  | [] => []
  | c :: rest => if c = q then q :: q :: double q rest else c :: double q rest

/-- The text between two quotes, its own quotes doubled. -/
def quote (q : Char) (s : String) : String :=
  String.ofList (q :: (double q s.toList ++ [q]))

/-- The text with every pair of neighbouring quotes removed, from left to right. -/
def dropPairs (q : Char) : List Char → List Char
  | [] => []
  | [c] => [c]
  | c :: d :: rest =>
    if c = q ∧ d = q then dropPairs q rest else c :: dropPairs q (d :: rest)

/-- What stands between a leading and a trailing quote, when the text has both and they are two
characters. -/
def inside? (q : Char) : List Char → Option (List Char)
  | [] => none
  | c :: rest => if c = q ∧ rest.getLast? = some q then some rest.dropLast else none

/-- Whether the text is already quoted. -/
def isQuoted (q : Char) (s : String) : Bool :=
  match inside? q s.toList with
  | none => false
  | some inner => !(dropPairs q inner).contains q

/-- Every pair of quotes written once; `none` when a quote stands alone. -/
def undouble? (q : Char) : List Char → Option (List Char)
  | [] => some []
  | [c] => if c = q then none else some [c]
  | c :: d :: rest =>
    if c = q then
      if d = q then (undouble? q rest).map (q :: ·) else none
    else (undouble? q (d :: rest)).map (c :: ·)

end BoundSql.Quoted
