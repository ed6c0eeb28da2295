import Tabular.Proofs.Watching

/-! # Statements that fail

A text that fails for a reason other than the store leaves everything as it was. One that fails
because a snapshot cannot be written leaves the store as it was, and its tables as they would be if
the snapshot had been written, except that a table which could not be created is not there.
-/

namespace Tabular

/-- A store that takes every snapshot and keeps none. -/
structure Sink where

instance : Store Sink where
  save _ := return ⟨⟩
  loadAll _ := .ok []

instance : LawfulStore Sink where
  refusal? _ _ := none
  save_refused refused := nomatch refused
  save_accepted _ := ⟨_, rfl, rfl⟩
  check_of_loadAll loaded t member := by
    cases loaded
    cases member

/-- Whether a text is to create a table. -/
def CreatesTable (text : String) : Prop :=
  ∃ name columns, Statement.parse text = .ok (.createTable name columns)

/-- Texts that are to create a table, and no others, come to a new table. -/
theorem createsTable_iff {c : Catalog} (sound : c.Sound) {text : String} {params : List Value}
    {effect : Effect} (h : c.effect text params = .ok effect) :
    CreatesTable text ↔ ∃ outcome t, effect = .created outcome t := by
  obtain ⟨plan, read, reached⟩ := Fallible.bind_eq_ok.mp h
  obtain ⟨statement, parsed, planned⟩ := Fallible.bind_eq_ok.mp read
  have creates : CreatesTable text ↔ ∃ schema, plan = .createTable schema := by
    rw [Statement.plan] at planned
    split at planned
    · cases planned
    · rw [← Plan.createTable_iff_of_bind planned, CreatesTable, Fallible.mapError_eq_ok.mp parsed]
      simp only [Except.ok.injEq]
  rw [creates]
  rcases plan.effect_cases sound reached with ⟨_, rfl, other⟩ | ⟨_, t, rfl, -, -, other⟩ |
    ⟨schema, rfl, rfl, -⟩
  · refine iff_of_false (not_exists.mpr other) ?_
    rintro ⟨_, _, same⟩
    cases same
  · refine iff_of_false (not_exists.mpr other) ?_
    rintro ⟨_, _, same⟩
    cases same
  · exact iff_of_true ⟨schema, rfl⟩ ⟨_, schema, rfl⟩

namespace Database

variable {σ : Type}

/-- A database with the same tables whose store takes every snapshot. -/
def unhindered (db : Database σ) : Database Sink := ⟨⟨⟩, db.catalog⟩

theorem perform_unhindered (db : Database σ) (effect : Effect) :
    ∃ outcome, effect.perform db.unhindered = .ok outcome ⟨⟨⟩, match effect with
      | .answered _ => db.catalog
      | .changed _ t | .created _ t => db.catalog.put t.name t⟩ := by
  cases effect with
  | answered outcome => exact ⟨outcome, rfl⟩
  | changed outcome t => exact ⟨outcome, rfl⟩
  | created outcome t => exact ⟨outcome, rfl⟩

theorem execute_unhindered {db : Database σ} (sound : db.catalog.Sound) {text : String}
    {params : List Value} {effect : Effect} (reached : db.catalog.effect text params = .ok effect) :
    execute text params db.unhindered = effect.perform db.unhindered := by
  have tables : db.unhindered.catalog.Sound := sound
  have effects : db.unhindered.catalog.effect text params = .ok effect := reached
  rw [execute_eq tables, effects]

variable [Store σ] [LawfulStore σ] {db : Database σ}

theorem atomic_of_reachable (h : db.Reachable) {text : String} {params : List Value} {e : Error}
    {db' : Database σ} (failed : execute text params db = .error e db') :
    ((∀ name, (name, some e) ∉ db.attempts text params) → db' = db) ∧
    ∀ name, (name, some e) ∈ db.attempts text params →
      db'.store = db.store ∧
      (CreatesTable text → db'.catalog = db.catalog) ∧
      (¬CreatesTable text → ∃ outcome after,
        execute text params db.unhindered = .ok outcome after ∧ db'.catalog = after.catalog) := by
  rw [attempts_eq h.sound]
  rw [execute_eq h.sound] at failed
  cases reached : db.catalog.effect text params with
  | error e' =>
      rw [reached] at failed
      cases failed
      exact ⟨fun _ => rfl, fun name member => nomatch member⟩
  | ok effect =>
      rw [reached] at failed
      have creates := createsTable_iff h.sound reached
      obtain ⟨outcome, t, refused, ended⟩ := Effect.perform_eq_error failed
      rcases ended with ⟨rfl, rfl⟩ | ⟨rfl, rfl⟩
      · have attempted : (t.name, some e) ∈ [(t.name, refusal? db.store t.name)] := by
          rw [refused]
          exact List.mem_cons_self
        refine ⟨fun unrefused => absurd attempted (unrefused t.name), fun name _ => ?_⟩
        refine ⟨rfl, fun create => ?_, fun _ => ?_⟩
        · obtain ⟨_, _, same⟩ := creates.mp create
          cases same
        · obtain ⟨outcome', performed⟩ := perform_unhindered db (.changed outcome t)
          exact ⟨_, _, (execute_unhindered h.sound reached).trans performed, rfl⟩
      · have attempted : (t.name, some e) ∈ [(t.name, refusal? db'.store t.name)] := by
          rw [refused]
          exact List.mem_cons_self
        refine ⟨fun unrefused => absurd attempted (unrefused t.name), fun name _ => ?_⟩
        exact ⟨rfl, fun _ => rfl, fun other => absurd (creates.mpr ⟨_, _, rfl⟩) other⟩

theorem insert_kept_when_refused :
    let db := (new (Refusable.mk MemoryStore.empty false)).afterAll
      [("CREATE TABLE t (a FLOAT)", [])]
    let refusing : Database (Refusable MemoryStore) :=
      { db with store := { db.store with refusing := true } }
    let insert : Action (Database (Refusable MemoryStore)) Outcome :=
      execute "INSERT INTO t VALUES (1)" []
    Action.result insert refusing = .error .saveRefused ∧
      (Action.after insert refusing).store = refusing.store ∧
      (Action.after insert refusing).table? "t" = some
        ⟨"t", [⟨"a", .float, false, false, true⟩], [[.float (.ofInt64 1)]], ∅⟩ := by
  intro db refusing insert
  have opened : open? (Refusable.mk MemoryStore.empty false) = .ok (new ⟨.empty, false⟩) := rfl
  have reachable : refusing.Reachable := .restored ((Reachable.opened opened).afterAll _) _
  have attempted : ("t", some .saveRefused) ∈
      refusing.attempts "INSERT INTO t VALUES (1)" [] := by decide +kernel
  have result : Action.result insert refusing = .error .saveRefused := by decide +kernel
  refine ⟨result, ?_, by decide +kernel⟩
  rw [Action.result] at result
  cases failed : insert refusing with
  | ok outcome after =>
      rw [failed] at result
      cases result
  | error e after =>
      rw [failed] at result
      cases result
      rw [Action.after, failed]
      exact ((atomic_of_reachable reachable failed).2 "t" attempted).1

end Database

end Tabular
