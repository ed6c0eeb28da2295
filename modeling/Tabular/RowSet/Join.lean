import Tabular.RowSet

/-! # Joins

A join pairs every row of one set with the rows of another that are equal to it in a column. The
columns of the result are those of the first set and then those of the second that the first does
not have; a pair takes the cell of a shared column from the second set.
-/

namespace Tabular.RowSet

/-- The positions in the first and in the second set of the two columns compared, which may be given
    in either order. -/
def joinPositions (left right : RowSet) (on : String × String) : Except Error (Nat × Nat) :=
  let (a, b) := on
  match left.columns.idxOf? a, right.columns.idxOf? b with
  | some l, some r => .ok (l, r)
  | _, _ =>
    match left.columns.idxOf? b, right.columns.idxOf? a with
    | some l, some r => .ok (l, r)
    | _, _ => .error (.columnNotFound (if a ∉ left.columns ∧ a ∉ right.columns then a else b))

/-- Adds columns to others where they are new, and gives the position of each. -/
def mergeColumns (columns : List String) : List String → List String × List Nat
  | [] => (columns, [])
  | name :: rest =>
    match columns.idxOf? name with
    | some position =>
      let (merged, positions) := mergeColumns columns rest
      (merged, position :: positions)
    | none =>
      let (merged, positions) := mergeColumns (columns ++ [name]) rest
      (merged, columns.length :: positions)

/-- A row filled up with nulls, or cut off, to a width. -/
def fit (width : Nat) (row : Row) : Row := (row.rightpad width .null).take width

/-- A row with the cells of another written to given positions. -/
def mergeRow (positions : List Nat) (row other : Row) : Except Error Row :=
  (other.zip positions).foldlM (fun row (v, position) => Row.put row position v) row

/-- The rows that one row of the first set gives. -/
def joinRow (right : RowSet) (on : Nat × Nat) (width : Nat) (positions : List Nat) (outer : Bool)
    (row : Row) : Except Error (List Row) := do
  let partners ← right.rows.filterM fun other => do
    return (← Row.cell row on.1).sqlEq (← Row.cell other on.2)
  if outer ∧ partners = [] then return [fit width row]
  partners.mapM (mergeRow positions (fit width row))

/-- The join of two sets on two columns; with `outer` a row of the first set that is in no pair is
    kept, filled up with nulls. -/
def join (left right : RowSet) (on : String × String) (outer : Bool) : Except Error RowSet := do
  let on ← joinPositions left right on
  let (columns, positions) := mergeColumns left.columns right.columns
  let rows ← left.rows.mapM (joinRow right on columns.length positions outer)
  return { columns, rows := rows.flatten }

end Tabular.RowSet
