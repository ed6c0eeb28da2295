import Tabular.Table.Lookup

/-! # Changing a table

Rows are added, changed and removed. Everything that can be wrong with a change is looked at before
anything is written, and the indexes follow.
-/

namespace Tabular

/-- Whether a number is one of some in ascending order. The half where it cannot be is given up until
    one number is left. -/
def bisect (n : Nat) (numbers : List Nat) : Bool :=
  let half := numbers.length / 2
  if h : half = 0 then numbers = [n]
  else if n < numbers[half] then bisect n (numbers.take (numbers.length - half))
  else bisect n (numbers.drop half)
termination_by numbers.length
decreasing_by
  all_goals
    simp only [List.length_take, List.length_drop]
    omega

namespace Table

/-- The form in which the table stores a row, if it accepts its cells. -/
def storedRow (t : Table) (row : Row) : Except Error Row := do
  if row.length ≠ t.columns.length then throw (.wrongArity t.columns.length row.length)
  (t.columns.zip row).mapM fun (c, v) => c.stored v

/-- Whether a row has a cell equal to a value. -/
def holds (t : Table) (position : Nat) (v : Value) : Except Error Bool :=
  t.rows.anyM fun row => do return (← Row.cell row position).sqlEq v

/-- Requires the cells of a new row to differ from all others in unique columns, unless they are
    null. -/
def checkNew (t : Table) (row : Row) : Except Error Unit :=
  (t.columns.zip row).zipIdx.forM fun ((c, v), position) => do
    if c.isUnique ∧ v ≠ .null then
      if ← t.holds position v then throw (.duplicateValue c.name v)

/-- Records a new row in an index. -/
def indexRow (row : Row) (position : Nat) (filed : String) (index : Index) : Action Table Unit := do
  let t ← get
  let v ← Row.cell row (← t.columnPosition index.column)
  set { t with indexes := t.indexes.insert filed (index.add v position) }

/-- Adds a row at the end and gives its position. -/
def insert (row : Row) : Action Table Nat := do
  let t ← get
  let stored ← t.storedRow row
  t.checkNew stored
  let position := t.rows.length
  t.indexes.toList.forM fun (filed, index) => indexRow stored position filed index
  modify fun t => { t with rows := t.rows ++ [stored] }
  return position

/-- Makes an index of a column, in the place of the one it had. -/
def addIndex (name column : String) : Action Table Unit := do
  let t ← get
  let index ← Index.build name column (← t.columnPosition column) t.rows
  set { t with indexes := t.indexes.insert column index }

/-- Makes every index anew from the rows. -/
def reindex : Action Table Unit := do
  let t ← get
  t.indexes.values.forM fun index => addIndex index.name index.column

/-- The table with its indexes made anew. -/
def reindexed (t : Table) : Except Error Table :=
  match reindex t with
  | .ok _ t => .ok t
  | .error e _ => .error e

/-- Whether writing a value to the rows at some positions would make two rows equal in a column. -/
def collides (t : Table) (targets : List Nat) (position : Nat) (v : Value) : Except Error Bool :=
  if 1 < targets.length then
    return true
  else
    t.rows.zipIdx.anyM fun (row, i) => do
      if bisect i targets then return false else return (← Row.cell row position).sqlEq v

/-- What an assignment writes to the rows at some positions: the position of the column and the
    stored form of the value. -/
def writtenCell (t : Table) (targets : List Nat) (name : String) (v : Value) :
    Except Error (Nat × Value) := do
  let (c, position) ← t.column name
  let stored ← c.stored v
  if c.isUnique ∧ stored ≠ .null ∧ targets ≠ [] then
    if ← t.collides targets position stored then throw (.duplicateValue c.name stored)
  return (position, stored)

/-- The row with other values in some cells. -/
def overwrite (row : Row) (cells : List (Nat × Value)) : Except Error Row :=
  cells.foldlM (fun row (position, v) => Row.put row position v) row

/-- The rows after writing cells to those at some positions. -/
def writtenRows (t : Table) (targets : List Nat) (cells : List (Nat × Value)) :
    Except Error (List Row) :=
  t.rows.zipIdx.mapM fun (row, i) => if i ∈ targets then overwrite row cells else return row

/-- The rows that stay when those at some positions are taken out, counted from a number on. -/
def retain (targets : List Nat) : Nat → List Row → List Row
  | _, [] => []
  | i, row :: rest =>
    if bisect i targets then retain targets (i + 1) rest
    else row :: retain targets (i + 1) rest

/-- The rows that are left without those at some positions. -/
def remainingRows (t : Table) (targets : List Nat) : List Row := retain targets 0 t.rows

/-- Carries out assignments on the rows that satisfy a condition and gives their number. -/
def update (filter : Option (Condition Value)) (assignments : SortedMap String Value) :
    Action Table Nat := do
  let t ← get
  let targets ← t.select filter
  let cells ← assignments.toList.mapM fun (name, v) => t.writtenCell targets name v
  if targets ≠ [] then
    let rows ← t.writtenRows targets cells
    set { t with rows }
    reindex
  return targets.length

/-- Removes the rows that satisfy a condition and gives their number. -/
def delete (filter : Option (Condition Value)) : Action Table Nat := do
  let t ← get
  let targets ← t.select filter
  if targets ≠ [] then
    set { t with rows := t.remainingRows targets }
    reindex
  return targets.length

end Table

end Tabular
