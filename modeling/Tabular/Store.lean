import Tabular.Table

/-! # Stores

A store keeps a snapshot of each table beyond the life of a database.
-/

namespace Tabular

/-- Runs a step on a part of a state. -/
def Action.on {σ τ α : Type} (part : σ → τ) (replace : τ → σ → σ) (action : Action τ α) :
    Action σ α := fun s =>
  match action (part s) with
  | .ok a t => .ok a (replace t s)
  | .error e t => .error e (replace t s)

/-- What a database needs of a store. -/
class Store (σ : Type) where
  /-- Keeps a snapshot of a table, in the place of the one kept before. -/
  save (t : Table) : Action σ Unit
  /-- The tables of all snapshots, in the order of the store. -/
  loadAll (store : σ) : Except Error (List Table)

/-- A store that can be told to refuse to save. -/
structure Refusable (σ : Type) where
  store : σ
  /-- Whether the store refuses at present. -/
  refusing : Bool

instance {σ : Type} [Store σ] : Store (Refusable σ) where
  save t := do
    if (← get).refusing then throw .saveRefused
    (Store.save t).on (·.store) fun store s => { s with store }
  loadAll s := Store.loadAll s.store

end Tabular
