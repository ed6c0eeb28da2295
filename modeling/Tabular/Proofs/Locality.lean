import Tabular.Proofs.Agreement
import Tabular.Proofs.Persistence

/-! # Statements keep to the tables that they name

A statement reads and writes no other tables than those it names, neither in memory nor in the store.
It changes rows and indexes, but never takes a table away, renames it or changes its columns; so a
catalog only grows.
-/

namespace Tabular

/-- A store in which writing the snapshot of a table leaves those of other names alone. -/
class SnapshotStore (σ : Type) [Store σ] extends LawfulStore σ where
  /-- The snapshot that stands under the name of a table. -/
  snapshot? : σ → String → Option (List UInt8)
  snapshot?_save {store : σ} {t : Table} (accepted : refusal? store t.name = none) {name : String}
    (other : name ≠ t.name) :
    snapshot? (Action.after (Store.save t) store) name = snapshot? store name

export SnapshotStore (snapshot?)

instance : SnapshotStore MemoryStore where
  snapshot? s name := s.snapshots.get? name
  snapshot?_save {s _} _ _ other := s.get?_keep_of_ne other

instance : SnapshotStore Directory where
  snapshot? d name := d.file? (Directory.fileName name)
  snapshot?_save {d _} accepted _ other := by
    rw [Directory.after_save accepted]
    exact d.file?_keep_of_ne (mt Directory.fileName_inj other)

instance {σ : Type} [Store σ] [SnapshotStore σ] : SnapshotStore (Refusable σ) where
  snapshot? s name := snapshot? s.store name
  snapshot?_save {s t} accepted _ other := by
    rw [Refusable.after_save accepted]
    exact SnapshotStore.snapshot?_save (Refusable.refusal?_eq_none_iff.mp accepted).2 other

/-! ## Tables that effects write -/

/-- The table that an effect writes. -/
def Effect.table? : Effect → Option Table
  | .answered _ => none
  | .changed _ t | .created _ t => some t

/-- A text writes only a table that it names, and that has the columns it had. -/
theorem Catalog.effect_writes {c : Catalog} (sound : c.Sound) {text : String} {params : List Value}
    {effect : Effect} (h : c.effect text params = .ok effect) {t : Table}
    (writes : effect.table? = some t) :
    t.name ∈ Statement.tablesOf text ∧
      ∀ old, c.get? t.name = some old → old.columns = t.columns := by
  obtain ⟨plan, read, h⟩ := Fallible.bind_eq_ok.mp h
  rw [← Plan.tables_ofText read]
  rcases plan.effect_cases sound h with ⟨_, rfl, -⟩ | ⟨_, t', rfl, -, rewrites, -⟩ |
    ⟨schema, rfl, rfl, -, new⟩
  · cases writes
  · cases writes
    obtain ⟨old, found, columns⟩ := rewrites.columns
    exact ⟨rewrites.named, fun u known => Option.some.inj (found.symm.trans known) ▸ columns⟩
  · cases writes
    exact ⟨List.mem_cons_self, fun old known => absurd ((sound.listed _).mpr ⟨old, known⟩) new⟩

/-! ## Catalogs that grow -/

/-- New names come last, and every table keeps its name and its columns. -/
structure Catalog.Grows (c c' : Catalog) : Prop where
  names : c.names <+: c'.names
  tables : ∀ name t, c.get? name = some t →
    ∃ t', c'.get? name = some t' ∧ t'.name = t.name ∧ t'.columns = t.columns

namespace Catalog

variable {c c' c'' : Catalog}

theorem Grows.refl (c : Catalog) : c.Grows c :=
  ⟨List.prefix_refl _, fun _ t found => ⟨t, found, rfl, rfl⟩⟩

theorem Grows.trans (first : c.Grows c') (second : c'.Grows c'') : c.Grows c'' := by
  refine ⟨first.names.trans second.names, fun name t found => ?_⟩
  obtain ⟨t', found', named, columns⟩ := first.tables name t found
  obtain ⟨t'', found'', named', columns'⟩ := second.tables name t' found'
  exact ⟨t'', found'', named'.trans named, columns'.trans columns⟩

theorem Sound.grows_put (sound : c.Sound) {t : Table}
    (kept : ∀ old, c.get? t.name = some old → old.columns = t.columns) :
    c.Grows (c.put t.name t) := by
  refine ⟨?_, fun name old found => ?_⟩
  · rw [names_put]
    split
    · exact List.prefix_refl _
    · exact List.prefix_append ..
  · rw [get?_put]
    by_cases same : name = t.name
    · subst same
      rw [if_pos rfl]
      exact ⟨t, rfl, (sound.filed _ old found).symm, (kept old found).symm⟩
    · rw [if_neg same]
      exact ⟨old, found, rfl, rfl⟩

end Catalog

/-! ## Carrying out effects and texts -/

namespace Database

section

variable {σ τ : Type} [Store σ] [LawfulStore σ] [Store τ] [LawfulStore τ]
variable {db : Database σ} {db' : Database τ}

/-- On databases that know the same tables under some names, and whose stores refuse the same of
    these, an effect on one of these tables has the same result and leaves the same tables. -/
theorem perform_local {names : List String}
    (tables : ∀ name ∈ names, db.table? name = db'.table? name)
    (stores : ∀ name ∈ names, refusal? db.store name = refusal? db'.store name) {effect : Effect}
    (writes : ∀ t, effect.table? = some t → t.name ∈ names) :
    Action.result effect.perform db = Action.result effect.perform db' ∧
      ∀ name ∈ names, (Action.after effect.perform db).table? name =
        (Action.after effect.perform db').table? name := by
  have put (t : Table) : ∀ name ∈ names,
      (db.catalog.put t.name t).get? name = (db'.catalog.put t.name t).get? name := by
    intro name member
    have same : db.catalog.get? name = db'.catalog.get? name := tables name member
    rw [Catalog.get?_put, Catalog.get?_put, same]
  cases effect with
  | answered outcome => exact ⟨rfl, tables⟩
  | changed outcome t =>
      simp only [Action.result, Action.after, Effect.perform_changed, stores t.name (writes t rfl)]
      cases refusal? db'.store t.name with
      | some e => exact ⟨rfl, put t⟩
      | none => exact ⟨rfl, put t⟩
  | created outcome t =>
      simp only [Action.result, Action.after, Effect.perform_created, stores t.name (writes t rfl)]
      cases refusal? db'.store t.name with
      | some e => exact ⟨rfl, tables⟩
      | none => exact ⟨rfl, put t⟩

theorem execute_local (sound : db.catalog.Sound) (sound' : db'.catalog.Sound) {text : String}
    (tables : ∀ name ∈ Statement.tablesOf text, db.table? name = db'.table? name)
    (stores : ∀ name ∈ Statement.tablesOf text, refusal? db.store name = refusal? db'.store name)
    (params : List Value) :
    Action.result (execute text params) db = Action.result (execute text params) db' ∧
      ∀ name ∈ Statement.tablesOf text, (Action.after (execute text params) db).table? name =
        (Action.after (execute text params) db').table? name := by
  have effects := Catalog.effect_congr tables params
  simp only [Action.result, Action.after, execute_eq sound, execute_eq sound']
  cases reached : db.catalog.effect text params with
  | error e =>
      rw [← effects, reached]
      exact ⟨rfl, tables⟩
  | ok effect =>
      rw [← effects, reached]
      exact perform_local tables stores fun t writes => (Catalog.effect_writes sound reached writes).1

theorem grows_execute (sound : db.catalog.Sound) (text : String) (params : List Value) :
    db.catalog.Grows (Action.after (execute text params) db).catalog := by
  rw [Action.after, execute_eq sound]
  cases reached : db.catalog.effect text params with
  | error e => exact .refl _
  | ok effect =>
      have written := fun t writes => (Catalog.effect_writes sound reached (t := t) writes).2
      cases effect with
      | answered outcome => exact .refl _
      | changed outcome t =>
          simp only [Effect.perform_changed]
          cases refusal? db.store t.name with
          | some e => exact sound.grows_put (written t rfl)
          | none => exact sound.grows_put (written t rfl)
      | created outcome t =>
          simp only [Effect.perform_created]
          cases refusal? db.store t.name with
          | some e => exact .refl _
          | none => exact sound.grows_put (written t rfl)

end

variable {σ : Type} [Store σ]

/-- A database to which texts lead, whatever happens to the store meanwhile. -/
inductive Onward (db : Database σ) : Database σ → Prop
  | start : Onward db db
  | executed {later : Database σ} (h : Onward db later) (text : String) (params : List Value) :
    Onward db (Action.after (execute text params) later)
  | restored {later : Database σ} (h : Onward db later) (store : σ) : Onward db { later with store }

theorem Onward.grows [LawfulStore σ] {db later : Database σ} (h : db.Onward later)
    (sound : db.catalog.Sound) : later.catalog.Sound ∧ db.catalog.Grows later.catalog := by
  induction h with
  | start => exact ⟨sound, .refl _⟩
  | executed h text params ih =>
      exact ⟨sound_execute ih.1 text params, ih.2.trans (grows_execute ih.1 text params)⟩
  | restored h store ih => exact ih

variable [SnapshotStore σ] {db : Database σ}

theorem perform_frame {effect : Effect} {name : String}
    (apart : ∀ t, effect.table? = some t → name ≠ t.name) :
    (Action.after effect.perform db).table? name = db.table? name ∧
      snapshot? (Action.after effect.perform db).store name = snapshot? db.store name := by
  cases effect with
  | answered outcome => exact ⟨rfl, rfl⟩
  | changed outcome t =>
      have other := apart t rfl
      have kept := Catalog.get?_put_of_ne db.catalog t other
      rw [Action.after, Effect.perform_changed]
      cases accepted : refusal? db.store t.name with
      | some e => exact ⟨kept, rfl⟩
      | none => exact ⟨kept, SnapshotStore.snapshot?_save accepted other⟩
  | created outcome t =>
      have other := apart t rfl
      have kept := Catalog.get?_put_of_ne db.catalog t other
      rw [Action.after, Effect.perform_created]
      cases accepted : refusal? db.store t.name with
      | some e => exact ⟨rfl, rfl⟩
      | none => exact ⟨kept, SnapshotStore.snapshot?_save accepted other⟩

theorem execute_frame (sound : db.catalog.Sound) {text : String} {name : String}
    (unnamed : name ∉ Statement.tablesOf text) (params : List Value) :
    (Action.after (execute text params) db).table? name = db.table? name ∧
      snapshot? (Action.after (execute text params) db).store name = snapshot? db.store name := by
  rw [Action.after, execute_eq sound]
  cases reached : db.catalog.effect text params with
  | error e => exact ⟨rfl, rfl⟩
  | ok effect =>
      refine perform_frame fun t writes same => unnamed ?_
      exact same ▸ (Catalog.effect_writes sound reached writes).1

/-- A statement depends on nothing but the tables that it names and changes nothing else, and in no
    run does a table disappear or change its name or its columns. -/
theorem local_to_named_tables {τ : Type} [Store τ] [SnapshotStore τ] {db' : Database τ}
    (h : db.Reachable) (h' : db'.Reachable) :
    (∀ text params, (∀ name ∈ Statement.tablesOf text, db.table? name = db'.table? name) →
      (∀ name ∈ Statement.tablesOf text, refusal? db.store name = refusal? db'.store name) →
      Action.result (execute text params) db = Action.result (execute text params) db' ∧
        ∀ name ∈ Statement.tablesOf text, (Action.after (execute text params) db).table? name =
          (Action.after (execute text params) db').table? name) ∧
    (∀ text params, ∀ name ∉ Statement.tablesOf text,
      (Action.after (execute text params) db).table? name = db.table? name ∧
        snapshot? (Action.after (execute text params) db).store name = snapshot? db.store name) ∧
    ∀ later, db.Onward later → db.tableNames <+: later.tableNames ∧
      ∀ name t, db.table? name = some t →
        ∃ t', later.table? name = some t' ∧ t'.name = t.name ∧ t'.columns = t.columns := by
  refine ⟨fun text params tables stores => execute_local h.sound h'.sound tables stores params,
    fun text params name unnamed => execute_frame h.sound unnamed params, fun later onward => ?_⟩
  have grows := (onward.grows h.sound).2
  exact ⟨grows.names, grows.tables⟩

theorem insert_local :
    let db := (new MemoryStore.empty).afterAll
      [("CREATE TABLE t (a INT)", []), ("CREATE TABLE u (a INT)", [])]
    let db' := (new (Directory.empty "d")).afterAll
      [("CREATE TABLE v (b TEXT)", []), ("CREATE TABLE t (a INT)", [])]
    let insert {σ : Type} [Store σ] : Action (Database σ) Outcome :=
      execute "INSERT INTO t VALUES (1)" []
    Action.result insert db = Action.result insert db' ∧
      (Action.after insert db).table? "t" = (Action.after insert db').table? "t" ∧
      snapshot? (Action.after insert db).store "u" = snapshot? db.store "u" ∧
      ["t", "u"] <+: (Action.after insert db).tableNames := by
  intro db db' insert
  have reachable : db.Reachable :=
    (Reachable.opened (rfl : open? MemoryStore.empty = .ok (new .empty))).afterAll _
  have reachable' : db'.Reachable :=
    (Reachable.opened (rfl : open? (Directory.empty "d") = .ok (new (.empty "d")))).afterAll _
  have named : Statement.tablesOf "INSERT INTO t VALUES (1)" = ["t"] := by decide +kernel
  have tables : ∀ name ∈ ["t"], db.table? name = db'.table? name := by decide +kernel
  have stores : ∀ name ∈ ["t"], refusal? db.store name = refusal? db'.store name := by
    decide +kernel
  have names : db.tableNames = ["t", "u"] := by decide +kernel
  obtain ⟨answers, frame, runs⟩ := local_to_named_tables reachable reachable'
  obtain ⟨same, left⟩ :=
    answers "INSERT INTO t VALUES (1)" [] (named ▸ tables) (named ▸ stores)
  have unnamed : "u" ∉ Statement.tablesOf "INSERT INTO t VALUES (1)" := by
    rw [named]
    decide
  refine ⟨same, left "t" (named ▸ List.mem_cons_self), (frame _ [] "u" unnamed).2, ?_⟩
  rw [← names]
  exact (runs _ (.executed .start _ _)).1

end Database

end Tabular
