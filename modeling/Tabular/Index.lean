import Tabular.Key
import Tabular.Row
import Tabular.SortedMap

/-! # Indexes

An index files the positions of rows under the key of their cell in one column, so that the rows
with a given value are found without looking at the others.
-/

namespace Tabular

/-- The index of a column. -/
structure Index where
  name : String
  column : String
  /-- The positions of the rows with each key, in increasing order. -/
  entries : SortedMap Key (List Nat)
  deriving DecidableEq

namespace Index

/-- The number of different keys. -/
def size (index : Index) : Nat := index.entries.size

/-- Records that the row at a position, which is above all recorded ones, holds a value. -/
def add (index : Index) (v : Value) (position : Nat) : Index :=
  let positions := (index.entries.get? v.key).getD []
  { index with entries := index.entries.insert v.key (positions ++ [position]) }

/-- The index of the column at `position` over rows that all have it. -/
def build (name column : String) (position : Nat) (rows : List Row) : Except Error Index :=
  rows.zipIdx.foldlM (fun index (row, i) => do return index.add (← Row.cell row position) i)
    { name, column, entries := ∅ }

/-- The positions of the rows that hold a value. What is no number is never found. -/
def lookup (index : Index) (v : Value) : List Nat :=
  if v.isNaN then [] else (index.entries.get? v.key).getD []

end Index

end Tabular
