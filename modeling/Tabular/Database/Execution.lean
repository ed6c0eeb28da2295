import Tabular.Database
import Tabular.Outcome
import Tabular.Plan
import Tabular.RowSet.Join
import Tabular.Table.Assembly

/-! # Carrying out plans

A query reads tables and leaves the database as it is; every other plan changes one table and then
writes its snapshot, except that nothing is written where nothing was changed.
-/

namespace Tabular.Plan

variable {σ : Type} [Store σ]

/-- Carries out a plan. -/
def execute : Plan → Action (Database σ) Outcome
  | .createTable schema => do
    schema.checkSchema
    Database.addTable schema
    return .tableCreated schema.name
  | .createIndex name table column => do
    Database.onTable table (Table.addIndex name column)
    Database.saveTable table
    return .indexCreated name table column
  | .insert table columns values => do
    let _ ← Database.onTable table (Table.insertValues columns values)
    Database.saveTable table
    return .rowInserted
  | .scan table condition => do
    let t ← (← get).table table
    return .selected (← t.read condition)
  | .join left right on outer => do
    let left ← (← left.execute).rowSet
    let right ← (← right.execute).rowSet
    return .selected (← left.join right on outer)
  | .filter source condition => do
    let rows ← (← source.execute).rowSet
    return .selected (← rows.filter condition)
  | .project source columns => do
    let rows ← (← source.execute).rowSet
    return .selected (← rows.project columns)
  | .limit source count => do
    let rows ← (← source.execute).rowSet
    return .selected (rows.limit count)
  | .update table condition assignments => do
    let count ← Database.onTable table (Table.update condition assignments)
    if 0 < count then Database.saveTable table
    return .updated count
  | .delete table condition => do
    let count ← Database.onTable table (Table.delete condition)
    if 0 < count then Database.saveTable table
    return .deleted count

end Tabular.Plan
