import Tabular.Table

/-! # Rules for stored tables

A table read back from a store is used only if it could have been built by adding rows: its rows fit
its columns, unique columns hold no value twice, and indexes stand under the columns they cover.
-/

namespace Tabular.Table

/-- Requires a row to be as wide as the table and its cells to be in stored form. -/
def checkRow (t : Table) (number : Nat) (row : Row) : Except Error Unit := do
  if row.length ≠ t.columns.length then
    throw (.wrongWidth number t.name row.length t.columns.length)
  (t.columns.zip row).forM fun (c, v) => c.check v

/-- The first value of a list that equals one before it, in the list or among the keys already seen.
    Null and what is no number equal nothing here. -/
def firstDuplicate? (seen : List Key) : List Value → Option Value
  | [] => none
  | v :: rest =>
    if v = .null ∨ v.isNaN then firstDuplicate? seen rest
    else if v.key ∈ seen then some v
    else firstDuplicate? (v.key :: seen) rest

/-- Requires the cells of a unique column to differ. -/
def checkUnique (t : Table) (c : Column) (position : Nat) : Except Error Unit := do
  if c.isUnique then
    let cells ← t.rows.mapM (Row.cell · position)
    if let some v := firstDuplicate? [] cells then throw (.duplicateValue c.name v)

/-- Requires an index to cover the column that it stands under, and that column to exist. -/
def checkIndex (t : Table) (filed : String) (index : Index) : Except Error Unit := do
  if index.column ≠ filed then throw (.misfiledIndex index.name filed index.column)
  discard (t.columnPosition filed)

/-- Requires a table to obey all rules. -/
def check (t : Table) : Except Error Unit := do
  t.checkSchema
  t.rows.zipIdx.forM fun (row, number) => t.checkRow number row
  t.columns.zipIdx.forM fun (c, position) => t.checkUnique c position
  t.indexes.toList.forM fun (filed, index) => t.checkIndex filed index

end Tabular.Table
