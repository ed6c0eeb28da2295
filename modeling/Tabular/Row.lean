import Tabular.Error

/-! # Rows

A row holds one value for each column, in the order of the columns.
-/

namespace Tabular

/-- The cells of a row. -/
abbrev Row := List Value

namespace Row

/-- The cell at a position, which has to exist. -/
def cell (row : Row) (position : Nat) : Except Error Value :=
  match row[position]? with
  | some v => .ok v
  | none => .error .outOfRange

/-- The row with another value in the cell at a position, which has to exist. -/
def put (row : Row) (position : Nat) (v : Value) : Except Error Row :=
  if position < row.length then .ok (row.set position v) else .error .outOfRange

theorem cell_eq_ok {row : Row} {position : Nat} (h : position < row.length) :
    cell row position = .ok row[position] := by
  simp [cell, h]

theorem put_eq_ok {row : Row} {position : Nat} (v : Value) (h : position < row.length) :
    put row position v = .ok (row.set position v) := by
  simp [put, h]

end Row

end Tabular
