import Tabular.RowSet

/-! # Outcomes

What a statement that succeeds has to show for it.
-/

namespace Tabular

/-- The outcome of a statement. -/
inductive Outcome where
  | tableCreated (name : String)
  | indexCreated (name table column : String)
  | rowInserted
  | selected (rows : RowSet)
  | updated (count : Nat)
  | deleted (count : Nat)
  deriving DecidableEq, Repr

namespace Outcome

/-- A line that says what was done. -/
def status : Outcome → String
  | .tableCreated name => "Table '" ++ name ++ "' created."
  | .indexCreated name table column =>
    "Index '" ++ name ++ "' created on " ++ table ++ "(" ++ column ++ ")."
  | .rowInserted => "1 row inserted."
  | .selected rows => toString rows.rows.length ++ " row(s) selected."
  | .updated count => toString count ++ " row(s) updated."
  | .deleted count => toString count ++ " row(s) deleted."

/-- The rows of a query; no other statement has any. -/
def rowSet : Outcome → Except Error RowSet
  | .selected rows => .ok rows
  | _ => .error .noRows

/-- The cell of a row, by its number, in the first column of a name, if both exist. -/
def cell? (outcome : Outcome) (number : Nat) (column : String) : Except Error (Option Value) :=
  match outcome with
  | .selected rows => rows.cell? number column
  | _ => return none

end Outcome

/-- What a user is shown for a statement. -/
inductive Output where
  | rows (found : RowSet)
  | status (message : String)
  | failure (e : Error)
  deriving DecidableEq, Repr

namespace Output

/-- What is shown for a statement that succeeded or failed. -/
def ofResult : Except Error Outcome → Output
  | .ok (.selected found) => .rows found
  | .ok outcome => .status outcome.status
  | .error e => .failure e

/-- Whether a statement failed. -/
def isError : Output → Bool
  | .failure _ => true
  | _ => false

/-- Cells, or the names of columns, on one line. -/
def line (cells : List String) : String := " | ".intercalate cells

/-- The text of what is shown: rows as lines under a line of column names. -/
def text : Output → String
  | .rows found =>
    "\n".intercalate (line found.columns :: found.rows.map fun row => line (row.map (·.display)))
  | .status message => message
  | .failure e => "Error: " ++ e.message

end Output

end Tabular
