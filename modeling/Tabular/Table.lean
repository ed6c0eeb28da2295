import Tabular.Column
import Tabular.Index

/-! # Tables

A table has named columns, rows in the order of their insertion, and indexes.
-/

namespace Tabular

/-- A table. -/
structure Table where
  name : String
  columns : List Column
  rows : List Row
  /-- The indexes, each under the name of its column. -/
  indexes : SortedMap String Index
  deriving DecidableEq

namespace Table

/-- A table without rows and indexes. -/
def new (name : String) (columns : List Column) : Table := ⟨name, columns, [], ∅⟩

/-- The names of the columns. -/
def columnNames (t : Table) : List String := t.columns.map (·.name)

/-- The first column of a name, and its position. -/
def column (t : Table) (name : String) : Except Error (Column × Nat) :=
  match t.columns.zipIdx.find? (·.1.name = name) with
  | some found => .ok found
  | none => .error (.columnNotFound name)

/-- The position of the first column of a name. -/
def columnPosition (t : Table) (name : String) : Except Error Nat :=
  (·.2) <$> t.column name

/-- The row at a position, which has to exist. -/
def row (t : Table) (position : Nat) : Except Error Row :=
  match t.rows[position]? with
  | some row => .ok row
  | none => .error .outOfRange

/-- The first name of a list that occurs before, in the list or among those already seen. -/
def firstRepeated? (seen : List String) : List String → Option String
  | [] => none
  | name :: rest => if name ∈ seen then some name else firstRepeated? (name :: seen) rest

/-- Requires at least one column and different names for different columns. -/
def checkSchema (t : Table) : Except Error Unit := do
  if t.columns = [] then throw (.noColumns t.name)
  match firstRepeated? [] t.columnNames with
  | some name => throw (.repeatedColumn name t.name)
  | none => return ()

end Table

end Tabular
