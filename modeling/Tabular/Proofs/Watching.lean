import Tabular.Proofs.Reachability

/-! # Watching what is written

A store can be wrapped so that every attempt to write a snapshot is noted down with how it ended.
Nothing else changes by that, so the notes tell what a text attempts on the store itself.
-/

namespace Tabular

/-- A store with the attempts made on it: the name of the table, and the error if there was one. -/
structure Watched (σ : Type) where
  store : σ
  attempts : List (String × Option Error)

instance {σ : Type} [Store σ] : Store (Watched σ) where
  save t s :=
    match Store.save t s.store with
    | .ok a store => .ok a ⟨store, s.attempts ++ [(t.name, none)]⟩
    | .error e store => .error e ⟨store, s.attempts ++ [(t.name, some e)]⟩
  loadAll s := Store.loadAll s.store

namespace Database

variable {σ : Type}

/-- A database of which every attempt to write is noted down from now on. -/
def watched (db : Database σ) : Database (Watched σ) := ⟨⟨db.store, []⟩, db.catalog⟩

/-- The database without the notes. -/
def unwatched (db : Database (Watched σ)) : Database σ := ⟨db.store.store, db.catalog⟩

variable [Store σ]

/-- The attempts to write that carrying out a text makes. -/
def attempts (db : Database σ) (text : String) (params : List Value) :
    List (String × Option Error) :=
  (Action.after (execute text params) db.watched).store.attempts

variable [LawfulStore σ] {db : Database σ}

theorem save_watched (t : Table) (db : Database (Watched σ)) :
    save t db = match refusal? db.store.store t.name with
      | some e => .error e
          { db with store.attempts := db.store.attempts ++ [(t.name, some e)] }
      | none => .ok ⟨⟩ { db with
          store := ⟨Action.after (Store.save t) db.store.store,
            db.store.attempts ++ [(t.name, none)]⟩ } := by
  have saved := LawfulStore.save_apply db.store.store t
  cases decided : refusal? db.store.store t.name with
  | some e =>
      rw [decided] at saved
      simp only [save, Action.on, Store.save, saved]
  | none =>
      rw [decided] at saved
      simp only [save, Action.on, Store.save, saved]

theorem perform_watched (db : Database σ) (effect : Effect) :
    Action.result effect.perform db.watched = Action.result effect.perform db ∧
      (Action.after effect.perform db.watched).unwatched = Action.after effect.perform db ∧
      (Action.after effect.perform db.watched).store.attempts = match effect with
        | .answered _ => []
        | .changed _ t | .created _ t => [(t.name, refusal? db.store t.name)] := by
  cases effect with
  | answered outcome => exact ⟨rfl, rfl, rfl⟩
  | changed outcome t =>
      have watching : (Effect.changed outcome t).perform db.watched =
          match refusal? db.store t.name with
          | some e => .error e
              ⟨⟨db.store, [(t.name, some e)]⟩, db.catalog.put t.name t⟩
          | none => .ok outcome
              ⟨⟨Action.after (Store.save t) db.store, [(t.name, none)]⟩,
                db.catalog.put t.name t⟩ := by
        simp only [Effect.perform, register, Action.bind_apply, Action.modify_apply, save_watched,
          watched]
        cases refusal? db.store t.name <;> rfl
      simp only [Action.result, Action.after, watching, Effect.perform_changed]
      cases refusal? db.store t.name with
      | some e => exact ⟨rfl, rfl, rfl⟩
      | none => exact ⟨rfl, rfl, rfl⟩
  | created outcome t =>
      have watching : (Effect.created outcome t).perform db.watched =
          match refusal? db.store t.name with
          | some e => .error e ⟨⟨db.store, [(t.name, some e)]⟩, db.catalog⟩
          | none => .ok outcome
              ⟨⟨Action.after (Store.save t) db.store, [(t.name, none)]⟩,
                db.catalog.put t.name t⟩ := by
        simp only [Effect.perform, register, Action.bind_apply, save_watched, watched]
        cases refusal? db.store t.name <;> rfl
      simp only [Action.result, Action.after, watching, Effect.perform_created]
      cases refusal? db.store t.name with
      | some e => exact ⟨rfl, rfl, rfl⟩
      | none => exact ⟨rfl, rfl, rfl⟩

/-- Watching changes neither the result of a text nor the database it leaves behind. -/
theorem execute_watched (sound : db.catalog.Sound) (text : String) (params : List Value) :
    Action.result (execute text params) db.watched = Action.result (execute text params) db ∧
      (Action.after (execute text params) db.watched).unwatched =
        Action.after (execute text params) db := by
  have watched : db.watched.catalog.Sound := sound
  simp only [Action.result, Action.after, execute_eq sound, execute_eq watched]
  cases reached : db.catalog.effect text params with
  | error e =>
      have reached : db.watched.catalog.effect text params = .error e := reached
      simp only [reached]
      exact ⟨trivial, rfl⟩
  | ok effect =>
      have reached : db.watched.catalog.effect text params = .ok effect := reached
      obtain ⟨results, databases, -⟩ := perform_watched db effect
      simp only [reached]
      exact ⟨results, databases⟩

/-- A text attempts to write at most one snapshot. -/
theorem attempts_eq (sound : db.catalog.Sound) (text : String) (params : List Value) :
    db.attempts text params = match db.catalog.effect text params with
      | .ok (.changed _ t) | .ok (.created _ t) => [(t.name, refusal? db.store t.name)]
      | _ => [] := by
  have watched : db.watched.catalog.Sound := sound
  simp only [attempts, Action.after, execute_eq watched]
  cases reached : db.catalog.effect text params with
  | error e =>
      have reached : db.watched.catalog.effect text params = .error e := reached
      simp only [reached]
      rfl
  | ok effect =>
      have reached : db.watched.catalog.effect text params = .ok effect := reached
      simp only [reached]
      refine (perform_watched db effect).2.2.trans ?_
      cases effect <;> rfl

end Database

end Tabular
