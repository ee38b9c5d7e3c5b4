import BoundSql.Error
import BoundSql.Text.Blank
import BoundSql.Text.Placeholder
import BoundSql.Text.Quoted

/-! # Names and aliases

Names of tables and columns go into a statement as they are, because they may be expressions such as
`COUNT(*)` or `T.A`.  A name that is given at run time is refused when it is blank, holds a NUL, or
holds a placeholder; a fixed name only when it is empty or holds a placeholder.

An alias is quoted when it holds a blank and is not quoted already.  The quoted form is what must be
free of placeholders, so a `?` is allowed inside quotes.
-/

namespace BoundSql.Name

/-- Why a fixed name is refused. -/
def fixedFault? (name : String) : Option NameFault :=
  if name = "" then some .empty
  else if Placeholder.count name ≠ 0 then some (.placeholder name)
  else none

/-- Why a name given at run time is refused. -/
def fault? (name : String) : Option NameFault :=
  if Text.allBlank name then some .empty
  else if name.toList.contains '\x00' then some .nul
  else if Placeholder.count name ≠ 0 then some (.placeholder name)
  else none

/-- An alias as it stands in a statement. -/
def quotedAlias (given : String) : String :=
  if Quoted.isQuoted '"' given || !Text.hasBlank given then given else Quoted.quote '"' given

/-- The alias as it stands in a statement, or why it is refused. -/
def checkAlias (given : String) : Except AliasFault String :=
  if Text.allBlank given then .error .empty
  else if given.toList.contains '\x00' then .error .nul
  else if Placeholder.count (quotedAlias given) ≠ 0 then .error (.placeholder given)
  else .ok (quotedAlias given)

end BoundSql.Name
