import Tabular.Row
import Tabular.Statement

/-! # Row sets

A row set is what a query works on and gives: named columns and a list of rows.
-/

namespace Tabular

/-- Rows with the names of their columns. -/
structure RowSet where
  columns : List String
  rows : List Row
  deriving DecidableEq, Repr

namespace RowSet

/-- The position of the first column of a name. -/
def columnPosition (s : RowSet) (name : String) : Except Error Nat :=
  match s.columns.idxOf? name with
  | some position => .ok position
  | none => .error (.columnNotFound name)

/-- The cell of a row, by its number, in the first column of a name, if both exist. -/
def cell? (s : RowSet) (number : Nat) (column : String) : Except Error (Option Value) :=
  match s.columns.idxOf? column, s.rows[number]? with
  | some position, some row => some <$> Row.cell row position
  | _, _ => return none

/-- The rows that satisfy a condition. -/
def filter (s : RowSet) (condition : Condition Value) : Except Error RowSet := do
  let position ← s.columnPosition condition.column
  let rows ← s.rows.filterM fun row => do
    return (← Row.cell row position).sqlEq condition.value
  return { s with rows }

/-- Some columns, in the given order. -/
def project (s : RowSet) (columns : List String) : Except Error RowSet := do
  let positions ← columns.mapM s.columnPosition
  let rows ← s.rows.mapM fun row => positions.mapM (Row.cell row)
  return { columns, rows }

/-- The first rows. -/
def limit (s : RowSet) (count : Nat) : RowSet := { s with rows := s.rows.take count }

end RowSet

end Tabular
