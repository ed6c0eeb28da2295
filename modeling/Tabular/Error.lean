import Tabular.ParseError
import Tabular.Snapshot.Error
import Tabular.Value

/-! # Errors

Every way in which work on tables can fail, and the wording of each.
-/

namespace Tabular

/-- Why an operation failed. -/
inductive Error where
  /-- A text is not a statement. -/
  | parse (e : ParseError)
  | tableNotFound (name : String)
  | columnNotFound (name : String)
  | tableExists (name : String)
  /-- A row has another number of values than there are places for them. -/
  | wrongArity (expected found : Nat)
  | typeMismatch (column : String) (expected : DataType) (value : Value)
  /-- A column that does not accept null is given null. -/
  | nullViolation (column : String)
  /-- A unique column would hold a value twice. -/
  | duplicateValue (column : String) (value : Value)
  /-- There are fewer values than parameters to be given one. -/
  | missingParameters (expected provided : Nat)
  /-- A table is declared without columns. -/
  | noColumns (table : String)
  | repeatedColumn (column table : String)
  /-- A stored row is not as wide as its table. -/
  | wrongWidth (row : Nat) (table : String) (values columns : Nat)
  /-- An index stands under another column than the one it covers. -/
  | misfiledIndex (index filed covered : String)
  /-- A query is built on a statement that gives no rows. -/
  | noRows
  | snapshot (e : SnapshotError)
  /-- A snapshot holds a table that breaks the rules for tables. -/
  | inconsistentSnapshot (table : String) (cause : Error)
  /-- A file holds a table of another name than its own. -/
  | foreignSnapshot (table : String)
  | cannotLoad (path : String) (cause : Error)
  /-- The store has been told to refuse. -/
  | saveRefused
  /-- The file to be written is a directory. -/
  | isDirectory
  /-- The directory of the file to be written does not exist. -/
  | noSuchDirectory
  /-- A cell or a row is asked for that does not exist. -/
  | outOfRange
  deriving DecidableEq, Repr

/-- The wording of an error, as results show it. -/
def Error.message : Error → String
  | .parse e => "parse error " ++ e.message
  | .tableNotFound name => "table '" ++ name ++ "' not found"
  | .columnNotFound name => "column '" ++ name ++ "' not found"
  | .tableExists name => "table '" ++ name ++ "' already exists"
  | .wrongArity expected found =>
    "value count mismatch: expected " ++ toString expected ++ " values, got " ++ toString found
  | .typeMismatch column expected value =>
    "invalid value for column '" ++ column ++ "': " ++ value.quoted ++ " is not " ++ expected.name
  | .nullViolation column => "column '" ++ column ++ "' cannot be null"
  | .duplicateValue column value =>
    "constraint violation: duplicate value " ++ value.quoted ++ " for unique column '" ++ column ++
      "'"
  | .missingParameters expected provided =>
    "not enough parameters for query placeholders: expected " ++ toString expected ++ ", got " ++
      toString provided
  | .noColumns table => "internal error table " ++ table ++ " has no columns"
  | .repeatedColumn column table =>
    "internal error duplicate column " ++ column ++ " in table " ++ table
  | .wrongWidth row table values columns =>
    "internal error row " ++ toString row ++ " of table " ++ table ++ " has " ++ toString values ++
      " values for " ++ toString columns ++ " columns"
  | .misfiledIndex index filed covered =>
    "internal error index " ++ index ++ " is filed under column " ++ filed ++ " but covers " ++
      covered
  | .noRows => "internal error Unexpected result set"
  | .snapshot e => "internal error " ++ e.message
  | .inconsistentSnapshot table cause =>
    "internal error inconsistent snapshot of table " ++ table ++ ": " ++ cause.message
  | .foreignSnapshot table =>
    "internal error file holds table " ++ table ++ ", expected " ++ table ++ ".db"
  | .cannotLoad path cause => "internal error cannot load " ++ path ++ ": " ++ cause.message
  | .saveRefused => "internal error save refused"
  | .isDirectory => "internal error Is a directory (os error 21)"
  | .noSuchDirectory => "internal error No such file or directory (os error 2)"
  | .outOfRange => "internal error index out of range"

/-- A step that changes a state and may fail. What it changed before failing stays changed. -/
abbrev Action (σ α : Type) : Type := EStateM Error σ α

/-- A computation that only may fail is a step that changes nothing. -/
instance {σ : Type} : MonadLift (Except Error) (EStateM Error σ) where
  monadLift
    | .ok a => pure a
    | .error e => throw e

end Tabular
