import Tabular.Table.Change

/-! # Rows from named values

A new row can be given by values for some of the columns, in any order; the other cells are null.
-/

namespace Tabular.Table

/-- The value given to a column, the last one if there are several, or null. -/
def givenValue (columns : List String) (values : List Value) (name : String) : Value :=
  ((columns.zip values).reverse.lookup name).getD .null

/-- The cells of columns in order, each value going to the first column of its name only. -/
def assignCells (columns : List String) (values : List Value) (seen : List String) :
    List String → Row
  | [] => []
  | name :: rest =>
    (if name ∈ seen then .null else givenValue columns values name) ::
      assignCells columns values (name :: seen) rest

/-- The row that gives values to some columns and null to the others. -/
def assembleRow (t : Table) (columns : List String) (values : List Value) : Except Error Row := do
  if columns.length ≠ values.length then throw (.wrongArity columns.length values.length)
  columns.forM fun name => discard (t.columnPosition name)
  return assignCells columns values [] t.columnNames

/-- Adds the row that gives values to some columns, or to all of them in order if none are named. -/
def insertValues (columns : List String) (values : List Value) : Action Table Nat := do
  let row ← if columns = [] then pure values else (← get).assembleRow columns values
  insert row

end Tabular.Table
