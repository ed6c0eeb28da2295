import Tabular.Proofs.Reachability

/-! # Runs of requests

A request is a text with the values of its parameters, together with what the store is told about
writing while it is carried out. A run answers requests one after another.
-/

namespace Tabular

/-- A text to be carried out. -/
structure Request where
  text : String
  params : List Value
  /-- Whether the store refuses to write meanwhile. -/
  refusing : Bool

namespace Database

variable {σ : Type}

/-- The database whose store is told whether to refuse. -/
def told (db : Database (Refusable σ)) (refusing : Bool) : Database (Refusable σ) :=
  { db with store := { db.store with refusing } }

variable [Store σ]

/-- The answer to a request. -/
def answer (db : Database (Refusable σ)) (r : Request) : Except Error Outcome :=
  Action.result (execute r.text r.params) (db.told r.refusing)

/-- The database after a request. -/
def serve (db : Database (Refusable σ)) (r : Request) : Database (Refusable σ) :=
  Action.after (execute r.text r.params) (db.told r.refusing)

/-- The answers to requests one after another. -/
def answers (db : Database (Refusable σ)) : List Request → List (Except Error Outcome)
  | [] => []
  | r :: rest => db.answer r :: (db.serve r).answers rest

/-- The database after requests one after another. -/
def serveAll (db : Database (Refusable σ)) (requests : List Request) : Database (Refusable σ) :=
  requests.foldl serve db

theorem Reachable.serve {db : Database (Refusable σ)} (h : db.Reachable) (r : Request) :
    (db.serve r).Reachable :=
  .executed (.restored h _) r.text r.params

variable [LawfulStore σ]

/-- Performing an effect does nothing to the store but saving. -/
theorem store_perform {P : σ → Prop}
    (saved : ∀ store t, P store → P (Action.after (Store.save t) store)) {db : Database σ}
    (h : P db.store) (effect : Effect) : P (Action.after effect.perform db).store := by
  cases effect with
  | answered outcome => exact h
  | changed outcome t =>
      rw [Action.after, Effect.perform_changed]
      cases refusal? db.store t.name with
      | some e => exact h
      | none => exact saved db.store t h
  | created outcome t =>
      rw [Action.after, Effect.perform_created]
      cases refusal? db.store t.name with
      | some e => exact h
      | none => exact saved db.store t h

theorem store_execute {P : σ → Prop}
    (saved : ∀ store t, P store → P (Action.after (Store.save t) store)) {db : Database σ}
    (sound : db.catalog.Sound) (h : P db.store) (text : String) (params : List Value) :
    P (Action.after (execute text params) db).store := by
  rw [Action.after, execute_eq sound]
  cases db.catalog.effect text params with
  | error e => exact h
  | ok effect => exact store_perform saved h effect

/-- What a store refuses of itself is not changed by requests. -/
theorem refusal?_serve {db : Database (Refusable σ)} (sound : db.catalog.Sound) (r : Request) :
    refusal? (db.serve r).store.store = refusal? db.store.store := by
  have told : (db.told r.refusing).catalog.Sound := sound
  refine store_execute (P := fun store => refusal? store.store = refusal? db.store.store)
    (fun store t h => ?_) told rfl r.text r.params
  rw [Action.after, Refusable.save_apply]
  by_cases refusing : store.refusing = true
  · rw [if_pos refusing]
    exact h
  · rw [if_neg refusing, LawfulStore.save_apply]
    cases decided : refusal? store.store t.name with
    | some e => exact h
    | none => exact (LawfulStore.refusal?_after store.store t).trans h

end Database

end Tabular
