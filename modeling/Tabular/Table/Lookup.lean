import Tabular.RowSet
import Tabular.Table

/-! # Finding rows

The rows that satisfy a condition are found by looking at every row, or in an index where there is
one.
-/

namespace Tabular.Table

/-- The positions of the rows whose cell at a position equals a value, in increasing order. -/
def scan (t : Table) (position : Nat) (v : Value) : Except Error (List Nat) := do
  let found ← t.rows.zipIdx.filterM fun (row, _) => do return (← Row.cell row position).sqlEq v
  return found.map (·.2)

/-- The positions of the rows that satisfy a condition, from the index of the column if it has
    one. -/
def find (t : Table) (condition : Condition Value) : Except Error (List Nat) := do
  let position ← t.columnPosition condition.column
  match t.indexes.get? condition.column with
  | some index => return index.lookup condition.value
  | none => t.scan position condition.value

/-- The rows of a table, or those that satisfy a condition. -/
def read (t : Table) : Option (Condition Value) → Except Error RowSet
  | none => return { columns := t.columnNames, rows := t.rows }
  | some condition => do
    let rows ← (← t.find condition).mapM t.row
    return { columns := t.columnNames, rows }

/-- The positions of the rows that a change concerns: those that satisfy the condition, all of them
    without one. Indexes are not asked. -/
def select (t : Table) : Option (Condition Value) → Except Error (List Nat)
  | some condition => do t.scan (← t.columnPosition condition.column) condition.value
  | none => return List.range t.rows.length

end Tabular.Table
