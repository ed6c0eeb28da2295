import Tabular.Catalog
import Tabular.Store
import Tabular.Table.Change

/-! # Databases

A database holds its tables in memory and keeps a snapshot of each in a store, written anew whenever
the table has changed.
-/

namespace Tabular

/-- A store and the tables in use. -/
structure Database (σ : Type) where
  store : σ
  catalog : Catalog

namespace Database

variable {σ : Type}

/-- A database that knows of no table in its store. -/
def new (store : σ) : Database σ := ⟨store, ∅⟩

/-- The names of the tables, in the order of registration. -/
def tableNames (db : Database σ) : List String := db.catalog.names

/-- The table of a name. -/
def table? (db : Database σ) (name : String) : Option Table := db.catalog.get? name

/-- The table of a name, which has to exist. -/
def table (db : Database σ) (name : String) : Except Error Table :=
  match db.table? name with
  | some t => .ok t
  | none => .error (.tableNotFound name)

/-- Registers a table under its name. -/
def register (t : Table) : Action (Database σ) Unit :=
  modify fun db => { db with catalog := db.catalog.put t.name t }

/-- Runs a step on a table, which has to exist. -/
def onTable {α : Type} (name : String) (action : Action Table α) : Action (Database σ) α := do
  let t ← (← get).table name
  action.on (fun _ => t) fun t db => { db with catalog := db.catalog.set name t }

variable [Store σ]

/-- Writes the snapshot of a table. -/
def save (t : Table) : Action (Database σ) Unit :=
  (Store.save t).on (·.store) fun store db => { db with store }

/-- Writes the snapshot of a registered table. -/
def saveTable (name : String) : Action (Database σ) Unit := do
  save (← (← get).table name)

/-- Takes up a new table once its snapshot is written. -/
def addTable (t : Table) : Action (Database σ) Unit := do
  if ((← get).table? t.name).isSome then throw (.tableExists t.name)
  save t
  modify fun db => { db with catalog := (db.catalog.enlist t.name).set t.name t }

/-- Registers every table of the store, with new indexes, and gives their number. A table of the
    same name is replaced in its place. -/
def load : Action (Database σ) Nat := do
  let tables ← Store.loadAll (← get).store
  tables.forM fun t => do register (← t.reindexed)
  return tables.length

/-- The database on a store with all its tables. -/
def open? (store : σ) : Except Error (Database σ) :=
  match load (new store) with
  | .ok _ db => .ok db
  | .error e _ => .error e

end Database

end Tabular
