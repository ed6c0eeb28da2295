import Tabular.Proofs.Effects
import Tabular.Proofs.Stores

/-! # The databases that can come about

A database comes about by opening a store and then by carrying out texts and loading, whether these
succeed or fail. Meanwhile anything may happen to the store. The catalog is sound at every moment.
-/

namespace Tabular

variable {σ : Type} [Store σ] [LawfulStore σ]

theorem LawfulStore.save_apply (store : σ) (t : Table) :
    Store.save t store = match refusal? store t.name with
      | some e => .error e store
      | none => .ok ⟨⟩ (Action.after (Store.save t) store) := by
  cases decided : refusal? store t.name with
  | some e => exact save_refused decided
  | none =>
      obtain ⟨store', saved, -⟩ := save_accepted decided
      rw [Action.after, saved]

theorem LawfulStore.refusal?_after (store : σ) (t : Table) :
    refusal? (Action.after (Store.save t) store) = refusal? store := by
  cases decided : refusal? store t.name with
  | some e => rw [Action.after, save_refused decided]
  | none =>
      obtain ⟨store', saved, same⟩ := save_accepted decided
      rw [Action.after, saved, same]

namespace Database

theorem save_apply (db : Database σ) (t : Table) :
    save t db = match refusal? db.store t.name with
      | some e => .error e db
      | none => .ok ⟨⟩ { db with store := Action.after (Store.save t) db.store } := by
  rw [save, Action.on, LawfulStore.save_apply]
  cases refusal? db.store t.name <;> rfl

theorem load_apply (db : Database σ) :
    load db = match Store.loadAll db.store with
      | .error e => .error e db
      | .ok tables => .ok tables.length { db with
          catalog := tables.foldl (fun c t => c.put t.name (t.withRows t.rows)) db.catalog } := by
  simp only [load, Action.bind_apply, Action.get_apply, Action.lift_apply]
  cases loaded : Store.loadAll db.store with
  | error e => rfl
  | ok tables =>
      have step : ∀ t ∈ tables, ∀ catalog : Catalog,
          (do register (← t.reindexed) : Action (Database σ) Unit) { db with catalog } =
            .ok ⟨⟩ { db with catalog := catalog.put t.name (t.withRows t.rows) } := by
        intro t member catalog
        have valid := Table.check_eq_ok_iff.mp (LawfulStore.check_of_loadAll loaded t member)
        simp only [Action.bind_apply, Action.lift_apply, Table.reindexed_eq_ok valid]
        rfl
      have loop := Action.forM_apply (fun catalog => { db with catalog }) step db.catalog
      simp only [loop]
      rfl

theorem open?_of_loadAll {store : σ} {tables : List Table}
    (loaded : Store.loadAll store = .ok tables) :
    open? store = .ok ⟨store, tables.foldl (fun c t => c.put t.name (t.withRows t.rows)) ∅⟩ := by
  rw [open?, load_apply]
  simp only [new, loaded]

end Database

namespace Effect

variable {db : Database σ}

theorem perform_changed (outcome : Outcome) (t : Table) :
    (Effect.changed outcome t).perform db = match refusal? db.store t.name with
      | some e => .error e { db with catalog := db.catalog.put t.name t }
      | none => .ok outcome
          ⟨Action.after (Store.save t) db.store, db.catalog.put t.name t⟩ := by
  simp only [perform, Database.register, Action.bind_apply, Action.modify_apply,
    Database.save_apply]
  cases refusal? db.store t.name <;> rfl

theorem perform_created (outcome : Outcome) (t : Table) :
    (Effect.created outcome t).perform db = match refusal? db.store t.name with
      | some e => .error e db
      | none => .ok outcome
          ⟨Action.after (Store.save t) db.store, db.catalog.put t.name t⟩ := by
  simp only [perform, Action.bind_apply, Database.save_apply]
  cases refusal? db.store t.name <;> rfl

/-- An effect fails only if its snapshot cannot be written. -/
theorem perform_eq_error {effect : Effect} {e : Error} {db' : Database σ}
    (h : effect.perform db = .error e db') :
    ∃ outcome t, refusal? db.store t.name = some e ∧
      (effect = .changed outcome t ∧ db' = ⟨db.store, db.catalog.put t.name t⟩ ∨
        effect = .created outcome t ∧ db' = db) := by
  cases effect with
  | answered outcome => cases h
  | changed outcome t =>
      rw [perform_changed] at h
      cases refused : refusal? db.store t.name with
      | none =>
          rw [refused] at h
          cases h
      | some e' =>
          rw [refused] at h
          cases h
          exact ⟨outcome, t, refused, .inl ⟨rfl, rfl⟩⟩
  | created outcome t =>
      rw [perform_created] at h
      cases refused : refusal? db.store t.name with
      | none =>
          rw [refused] at h
          cases h
      | some e' =>
          rw [refused] at h
          cases h
          exact ⟨outcome, t, refused, .inr ⟨rfl, rfl⟩⟩

end Effect

namespace Database

/-- A database that comes about. -/
inductive Reachable : Database σ → Prop
  | opened {store : σ} {db : Database σ} (h : open? store = .ok db) : Reachable db
  | executed {db : Database σ} (h : Reachable db) (text : String) (params : List Value) :
    Reachable (Action.after (execute text params) db)
  | loaded {db : Database σ} (h : Reachable db) : Reachable (Action.after load db)
  /-- Anything may happen to the store. -/
  | restored {db : Database σ} (h : Reachable db) (store : σ) : Reachable { db with store }

/-- The database after some texts have been carried out, each with the values of its parameters. -/
def afterAll (db : Database σ) (texts : List (String × List Value)) : Database σ :=
  texts.foldl (fun db e => Action.after (execute e.1 e.2) db) db

omit [LawfulStore σ] in
theorem Reachable.afterAll {db : Database σ} (h : db.Reachable)
    (texts : List (String × List Value)) : (db.afterAll texts).Reachable := by
  induction texts generalizing db with
  | nil => exact h
  | cons head rest ih => exact ih (h.executed head.1 head.2)

theorem sound_load {db : Database σ} (sound : db.catalog.Sound) :
    (Action.after load db).catalog.Sound := by
  rw [Action.after, load_apply]
  cases loaded : Store.loadAll db.store with
  | error e => exact sound
  | ok tables =>
      have valid : ∀ t ∈ tables, t.Valid := fun t member =>
        Table.check_eq_ok_iff.mp (LawfulStore.check_of_loadAll loaded t member)
      have folded : ∀ c : Catalog, c.Sound →
          (tables.foldl (fun c t => c.put t.name (t.withRows t.rows)) c).Sound := by
        clear loaded
        induction tables with
        | nil => exact fun c sound => sound
        | cons head rest ih =>
            intro c sound
            obtain ⟨here, valid⟩ := List.forall_mem_cons.mp valid
            exact ih valid _ (sound.put here.sound)
      exact folded db.catalog sound

theorem sound_perform {db : Database σ} (sound : db.catalog.Sound) {effect : Effect}
    (tables : effect.Sound db.catalog) : (Action.after effect.perform db).catalog.Sound := by
  cases effect with
  | answered outcome => exact sound
  | changed outcome t =>
      rw [Action.after, Effect.perform_changed]
      cases refusal? db.store t.name <;> exact sound.put tables.1
  | created outcome t =>
      rw [Action.after, Effect.perform_created]
      cases refusal? db.store t.name with
      | some e => exact sound
      | none => exact sound.put tables.1

theorem sound_execute {db : Database σ} (sound : db.catalog.Sound) (text : String)
    (params : List Value) : (Action.after (execute text params) db).catalog.Sound := by
  rw [Action.after, execute_eq sound]
  cases reached : db.catalog.effect text params with
  | error e => exact sound
  | ok effect => exact sound_perform sound (Catalog.effect_sound sound reached)

theorem sound_open {store : σ} {db : Database σ} (h : open? store = .ok db) :
    db.catalog.Sound := by
  have loaded : (Action.after load (new store)).catalog.Sound := sound_load Catalog.sound_empty
  rw [Action.after] at loaded
  rw [open?] at h
  cases result : load (new store) with
  | ok count db' =>
      rw [result] at h loaded
      cases h
      exact loaded
  | error e db' =>
      rw [result] at h
      cases h

/-- The catalog of a database is sound at every moment. -/
theorem Reachable.sound {db : Database σ} (h : db.Reachable) : db.catalog.Sound := by
  induction h with
  | opened h => exact sound_open h
  | executed h text params ih => exact sound_execute ih text params
  | loaded h ih => exact sound_load ih
  | restored h store ih => exact ih

end Database

end Tabular
