import BoundSql.Calendar.Pattern
import BoundSql.Text.Utf8
import BoundSql.Uuid

/-! # Errors

An error says what went wrong, not how it reads: the causes are constructors, and each wording
stands in one function.  Arguments are refused when a statement is built, cells when a row is
decoded; the database and the connection to it fail on their own.
-/

namespace BoundSql

/-- What carries a name. -/
inductive Named where
  | table
  | column
  deriving DecidableEq, Repr

/-- The word for what carries a name. -/
def Named.word : Named → String
  | .table => "table"
  | .column => "column"

/-- Why a name is refused. -/
inductive NameFault where
  | empty
  | nul
  | placeholder (name : String)
  deriving DecidableEq, Repr

/-- The wording of a refused fixed name, which does not repeat the name. -/
def NameFault.brief (what : Named) : NameFault → String
  | .empty => what.word ++ " name cannot be empty"
  | .nul => what.word ++ " name cannot contain NUL character"
  | .placeholder _ => what.word ++ " name cannot contain a \x60?\x60 placeholder"

/-- The wording of a refused name. -/
def NameFault.message (what : Named) : NameFault → String
  | .empty => what.word ++ " name cannot be empty"
  | .nul => what.word ++ " name cannot contain NUL character"
  | .placeholder name => what.word ++ " name cannot contain a \x60?\x60 placeholder: " ++ name

/-- Why an alias is refused. -/
inductive AliasFault where
  | empty
  | nul
  | placeholder (given : String)
  deriving DecidableEq, Repr

/-- The wording of a refused alias. -/
def AliasFault.message : AliasFault → String
  | .empty => "alias cannot be empty"
  | .nul => "alias cannot contain NUL character"
  | .placeholder given => "alias cannot contain a \x60?\x60 placeholder: " ++ given

/-- Why an argument is refused. -/
inductive ArgumentFault where
  | name (what : Named) (fault : NameFault)
  | badAlias (fault : AliasFault)
  /-- A list comparison got no value. -/
  | emptyList (operator column : String)
  /-- A condition fragment holds nothing but blanks. -/
  | emptyCondition
  /-- A condition fragment has as many placeholders, but got as many values. -/
  | valueCount (placeholders values : Nat)
  /-- A clause got an empty list of items. -/
  | noItems (clause item : String)
  /-- Any other cause, in words. -/
  | described (message : String)
  deriving DecidableEq, Repr

/-- The wording of a refused argument. -/
def ArgumentFault.message : ArgumentFault → String
  | .name what fault => fault.message what
  | .badAlias fault => fault.message
  | .emptyList operator column => operator ++ " on " ++ column ++ " requires at least one value"
  | .emptyCondition => "filter condition cannot be empty"
  | .valueCount placeholders values =>
    "filter has " ++ Decimal.natural placeholders ++ " placeholders but " ++
      Decimal.natural values ++ " values"
  | .noItems clause item => clause ++ " requires at least one " ++ item
  | .described message => message

/-- Why a cell is refused. -/
inductive DecodeFault where
  | unexpectedNull
  | mismatch (expected found : String)
  | outOfRange (value : Int) (type : String)
  | calendar (fault : Calendar.Fault)
  | uuid (fault : Uuid.Fault)
  | json
  | utf8 (fault : Utf8.Fault)
  | noSuchColumn
  /-- Any other cause, in words. -/
  | described (message : String)
  deriving DecidableEq, Repr

/-- The wording of a refused cell. -/
def DecodeFault.message : DecodeFault → String
  | .unexpectedNull => "unexpected NULL"
  | .mismatch expected found => "expected " ++ expected ++ ", got " ++ found
  | .outOfRange value type => Decimal.integer value ++ " out of range for " ++ type
  | .calendar fault => fault.message
  | .uuid fault => fault.message
  | .json => "invalid JSON"
  | .utf8 fault => fault.message
  | .noSuchColumn => "no such column"
  | .described message => message

/-- What a database refuses. -/
inductive DatabaseFault where
  | unknownColumn (name : String)
  | indexOutOfRange
  /-- A statement that returns rows was run for its effect. -/
  | returnedRows
  /-- The statement text is not understood. -/
  | badStatement
  deriving DecidableEq, Repr

/-- The wording of a database fault. -/
def DatabaseFault.message : DatabaseFault → String
  | .unknownColumn name => "Invalid column name: " ++ name
  | .indexOutOfRange => "column index out of range"
  | .returnedRows => "Execute returned results - did you mean to call query?"
  | .badStatement => "syntax error"

/-- What goes wrong when statements are built and run. -/
inductive SqlError where
  | invalidArgument (fault : ArgumentFault)
  | database (fault : DatabaseFault)
  | connection (message : String)
  | decode (column : String) (fault : DecodeFault)
  | other (message : String)
  deriving DecidableEq, Repr

namespace SqlError

/-- The text of an error. -/
def text : SqlError → String
  | .invalidArgument fault => "Invalid argument: " ++ fault.message
  | .database fault => "Database error: " ++ fault.message
  | .connection message => "Connection error: " ++ message
  | .decode column fault => "Decode error on column '" ++ column ++ "': " ++ fault.message
  | .other message => message

/-- Whether an argument was refused. -/
def isInvalidArgument : SqlError → Bool
  | .invalidArgument _ => true
  | _ => false

/-- Whether the database or the connection to it failed. -/
def isDatabaseError : SqlError → Bool
  | .database _ => true
  | .connection _ => true
  | _ => false

end SqlError

end BoundSql
