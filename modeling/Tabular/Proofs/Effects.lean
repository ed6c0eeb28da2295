import Tabular.Database.Session
import Tabular.Proofs.Catalogs

/-! # What statements come to

On a sound catalog a statement first works out its answer and at most one table to be written, and
only this can fail for reasons other than the store. What is left is to register the table and to
write its snapshot.
-/

namespace Tabular

/-- What a statement comes to. -/
inductive Effect where
  | answered (outcome : Outcome)
  /-- A table changes. Its snapshot is written afterwards. -/
  | changed (outcome : Outcome) (t : Table)
  /-- A table is new. It is registered once its snapshot is written. -/
  | created (outcome : Outcome) (t : Table)

/-- A change of rows, which comes to nothing but an answer if it concerns none. -/
def Effect.counted (outcome : Nat → Outcome) (t : Table) (result : Nat × List Row) : Effect :=
  if result.1 = 0 then .answered (outcome result.1)
  else .changed (outcome result.1) (t.withRows result.2)

/-- The outcome of an effect, if its snapshot can be written. -/
def Effect.outcome : Effect → Outcome
  | .answered outcome | .changed outcome _ | .created outcome _ => outcome

theorem Effect.outcome_counted (outcome : Nat → Outcome) (t : Table) (result : Nat × List Row) :
    (counted outcome t result).outcome = outcome result.1 := by
  rw [counted]
  split
  · rfl
  · rfl

/-- The table of a name, which has to exist. -/
def Catalog.table (c : Catalog) (name : String) : Except Error Table :=
  match c.get? name with
  | some t => .ok t
  | none => .error (.tableNotFound name)

theorem Catalog.table_eq_ok {c : Catalog} {name : String} {t : Table} (h : c.table name = .ok t) :
    c.get? name = some t := by
  rw [table] at h
  split at h
  · cases h
    assumption
  · cases h

theorem Catalog.table_of_get? {c : Catalog} {name : String} {t : Table}
    (found : c.get? name = some t) : c.table name = .ok t := by
  rw [table, found]

theorem Catalog.table_of_missing {c : Catalog} {name : String} (absent : c.get? name = none) :
    c.table name = .error (.tableNotFound name) := by
  rw [table, absent]

theorem Catalog.Sound.table {c : Catalog} (sound : c.Sound) {name : String} {t : Table}
    (h : c.table name = .ok t) : t.Sound :=
  sound.tables name t (table_eq_ok h)

namespace Plan

/-- Whether a plan only reads. -/
def isQuery : Plan → Bool
  | .scan .. => true
  | .join left right .. => left.isQuery && right.isQuery
  | .filter source _ | .project source _ | .limit source _ => source.isQuery
  | _ => false

/-- Plans as statements have them: queries, and single changes, of which those that create a table
    create it empty. -/
def IsStatement : Plan → Prop
  | .createTable schema => schema.rows = [] ∧ schema.indexes = ∅
  | .createIndex .. | .insert .. | .update .. | .delete .. => True
  | plan => plan.isQuery = true

/-- The tables that a plan names. -/
def tables : Plan → List String
  | .createTable schema => [schema.name]
  | .createIndex _ table _ | .insert table _ _ | .scan table _ | .update table _ _
  | .delete table _ => [table]
  | .join left right _ _ => left.tables ++ right.tables
  | .filter source _ | .project source _ | .limit source _ => source.tables

/-- The rows that a query gives. -/
def rows (c : Catalog) : Plan → Except Error RowSet
  | .scan table condition => do
    let t ← c.table table
    t.read condition
  | .join left right on outer => do
    let left ← left.rows c
    let right ← right.rows c
    left.join right on outer
  | .filter source condition => do
    let rows ← source.rows c
    rows.filter condition
  | .project source columns => do
    let rows ← source.rows c
    rows.project columns
  | .limit source count => do
    let rows ← source.rows c
    return rows.limit count
  | _ => .error .noRows

/-- What a plan comes to on a catalog, if it does not fail. -/
def effect (c : Catalog) : Plan → Except Error Effect
  | .createTable schema => do
    schema.checkSchema
    if (c.get? schema.name).isSome then throw (.tableExists schema.name)
    return .created (.tableCreated schema.name) schema
  | .createIndex name table column => do
    let t ← c.table table
    let t ← t.indexing name column
    return .changed (.indexCreated name table column) t
  | .insert table columns values => do
    let t ← c.table table
    let rows ← t.given columns values >>= t.insertion
    return .changed .rowInserted (t.withRows rows)
  | .update table condition assignments => do
    let t ← c.table table
    let result ← t.revision condition assignments
    return .counted .updated t result
  | .delete table condition => do
    let t ← c.table table
    let result ← t.removal condition
    return .counted .deleted t result
  | plan => do
    let rows ← plan.rows c
    return .answered (.selected rows)

end Plan

namespace Database

variable {σ : Type}

theorem table_eq (db : Database σ) (name : String) : db.table name = db.catalog.table name := rfl

theorem onTable_apply {db : Database σ} {name : String} {t : Table}
    (found : db.catalog.get? name = some t) {α : Type} (action : Action Table α) :
    onTable name action db = match action t with
      | .ok a t' => .ok a { db with catalog := db.catalog.put name t' }
      | .error e t' => .error e { db with catalog := db.catalog.put name t' } := by
  have known : db.table name = .ok t := Catalog.table_of_get? found
  have old : (db.catalog.get? name).isSome := by simp [found]
  simp only [onTable, Action.bind_apply, Action.get_apply, Action.lift_apply, known, Action.on,
    Catalog.put_of_isSome old]
  cases action t <;> rfl

theorem onTable_missing {db : Database σ} {name : String}
    (absent : db.catalog.get? name = none) {α : Type} (action : Action Table α) :
    onTable name action db = .error (.tableNotFound name) db := by
  have missing : db.table name = .error (.tableNotFound name) := Catalog.table_of_missing absent
  simp only [onTable, Action.bind_apply, Action.get_apply, Action.lift_apply, missing]

/-- A change of a table that fails leaves the database as it is. -/
theorem onTable_failed {db : Database σ} {name : String} {t : Table}
    (found : db.catalog.get? name = some t) {α β : Type} {action : Action Table α} {e : Error}
    (failed : action t = .error e t) (next : α → Action (Database σ) β) :
    (onTable name action >>= next) db = .error e db := by
  simp only [Action.bind_apply, onTable_apply found, failed, Catalog.put_of_get? found]

theorem onTable_missing_bind {db : Database σ} {name : String}
    (absent : db.catalog.get? name = none) {α β : Type} (action : Action Table α)
    (next : α → Action (Database σ) β) :
    (onTable name action >>= next) db = .error (.tableNotFound name) db := by
  rw [Action.bind_apply, onTable_missing absent]

variable [Store σ]

theorem saveTable_apply {db : Database σ} {name : String} {t : Table}
    (found : db.catalog.get? name = some t) : saveTable name db = save t db := by
  have known : db.table name = .ok t := Catalog.table_of_get? found
  simp only [saveTable, Action.bind_apply, Action.get_apply, Action.lift_apply, known]

theorem addTable_taken {db : Database σ} {t : Table} (taken : (db.catalog.get? t.name).isSome) :
    addTable t db = .error (.tableExists t.name) db := by
  have taken : (db.table? t.name).isSome := taken
  simp only [addTable, Action.bind_apply, Action.get_apply, taken, if_true]
  rfl

/-- To add a name to the list and to put a table under it is to register a table that is new. -/
theorem addTable_apply {db : Database σ} {t : Table} (new : db.catalog.get? t.name = none) :
    addTable t db = (do save t; register t) db := by
  have free : (db.table? t.name).isSome = false := by simp [table?, new]
  simp only [addTable, register, save, Action.bind_apply, Action.get_apply, Action.on, free,
    Bool.false_eq_true, if_false]
  cases Store.save t db.store with
  | error e store => rfl
  | ok a store => simp only [Action.modify_apply, Catalog.put_of_missing new]

end Database

variable {σ : Type} [Store σ]

/-- Registers the table of an effect, if it has one, and writes its snapshot. -/
def Effect.perform : Effect → Action (Database σ) Outcome
  | .answered outcome => return outcome
  | .changed outcome t => do
    Database.register t
    Database.save t
    return outcome
  | .created outcome t => do
    Database.save t
    Database.register t
    return outcome

/-- A change of a table that is followed by writing its snapshot. -/
theorem Database.changed_apply {db : Database σ} {name : String} {t : Table}
    (found : db.catalog.get? name = some t) {α : Type} {action : Action Table α} {a : α} {t' : Table}
    (change : action t = .ok a t') (named : t'.name = name) (outcome : Outcome) :
    (do let _ ← Database.onTable name action; Database.saveTable name; return outcome) db =
      (Effect.changed outcome t').perform db := by
  subst named
  simp only [Effect.perform, Action.bind_apply, Database.onTable_apply found, change,
    Database.register, Action.modify_apply]
  rw [Database.saveTable_apply (Catalog.get?_put_self ..)]

/-- A change of rows that fails leaves the table as it is, and one that concerns none writes no
    snapshot. -/
theorem Database.counted_apply {db : Database σ} (sound : db.catalog.Sound) (name : String)
    {action : Action Table Nat} {change : Table → Except Error (Nat × List Row)}
    (apply : ∀ t, t.Sound → action t = match change t with
      | .ok (count, rows) => .ok count (t.withRows rows)
      | .error e => .error e t)
    (same : ∀ t rows, change t = .ok (0, rows) → rows = t.rows) (outcome : Nat → Outcome) :
    (do
      let count ← Database.onTable name action
      if 0 < count then Database.saveTable name
      return outcome count) db =
    match (do
      let t ← db.catalog.table name
      let result ← change t
      return Effect.counted outcome t result) with
    | .ok effect => effect.perform db
    | .error e => .error e db := by
  rw [Catalog.table]
  cases found : db.catalog.get? name with
  | none => exact onTable_missing_bind found _ _
  | some t =>
      have table := sound.tables name t found
      simp only [Fallible.ok_bind]
      cases made : change t with
      | error e =>
          have failed : action t = .error e t := by rw [apply t table, made]
          exact onTable_failed found failed _
      | ok result =>
          obtain ⟨count, rows⟩ := result
          have changed : action t = .ok count (t.withRows rows) := by rw [apply t table, made]
          simp only [Fallible.ok_bind, Effect.counted]
          by_cases none : count = 0
          · subst none
            rw [same t rows made, table.current] at changed
            simp only [Action.bind_apply, onTable_apply found, changed, Catalog.put_of_get? found]
            rfl
          · have saved := changed_apply found changed (sound.filed name t found) (outcome count)
            simp only [Action.bind_apply, onTable_apply found, changed] at saved
            simp only [Action.bind_apply, onTable_apply found, changed,
              if_pos (Nat.pos_of_ne_zero none), none, if_false]
            exact saved

namespace Plan

/-- A query answers with its rows and leaves the database as it is. -/
theorem execute_query {plan : Plan} (query : plan.isQuery = true) (db : Database σ) :
    plan.execute db = match plan.rows db.catalog with
      | .ok rows => .ok (.selected rows) db
      | .error e => .error e db := by
  induction plan with
  | createTable | createIndex | insert | update | delete => cases query
  | scan table condition =>
      simp only [execute, rows, Action.bind_apply, Action.get_apply, Action.lift_apply,
        Database.table_eq]
      cases db.catalog.table table with
      | error e => rfl
      | ok t =>
          simp only [Fallible.ok_bind]
          cases t.read condition <;> rfl
  | join left right on outer ihl ihr =>
      obtain ⟨hl, hr⟩ := Bool.and_eq_true_iff.mp query
      simp only [execute, rows, Action.bind_apply, ihl hl]
      cases left.rows db.catalog with
      | error e => rfl
      | ok l =>
          simp only [Outcome.rowSet, Action.lift_apply, ihr hr, Fallible.ok_bind]
          cases right.rows db.catalog with
          | error e => rfl
          | ok r =>
              simp only [Fallible.ok_bind]
              cases l.join r on outer <;> rfl
  | filter source condition ih =>
      simp only [execute, rows, Action.bind_apply, ih query]
      cases source.rows db.catalog with
      | error e => rfl
      | ok s =>
          simp only [Outcome.rowSet, Action.lift_apply, Fallible.ok_bind]
          cases s.filter condition <;> rfl
  | project source columns ih =>
      simp only [execute, rows, Action.bind_apply, ih query]
      cases source.rows db.catalog with
      | error e => rfl
      | ok s =>
          simp only [Outcome.rowSet, Action.lift_apply, Fallible.ok_bind]
          cases s.project columns <;> rfl
  | limit source count ih =>
      simp only [execute, rows, Action.bind_apply, ih query]
      cases source.rows db.catalog with
      | error e => rfl
      | ok s => rfl

/-- Carrying out a statement means working out what it comes to and performing that. -/
theorem execute_eq {plan : Plan} (statement : plan.IsStatement) {db : Database σ}
    (sound : db.catalog.Sound) :
    plan.execute db = match plan.effect db.catalog with
      | .ok effect => effect.perform db
      | .error e => .error e db := by
  cases plan with
  | scan | join | filter | project | limit =>
      rw [execute_query statement, effect]
      · cases rows db.catalog _ <;> rfl
      all_goals exact nofun
  | createTable schema =>
      simp only [execute, effect, Effect.perform, Action.bind_apply, Action.lift_apply]
      cases schema.checkSchema with
      | error e => rfl
      | ok u =>
          simp only [Fallible.ok_bind]
          by_cases taken : (db.catalog.get? schema.name).isSome = true
          · rw [Database.addTable_taken taken]
            simp only [taken, if_true]
            rfl
          · rw [Database.addTable_apply (Option.not_isSome_iff_eq_none.mp taken)]
            simp only [taken, Bool.false_eq_true, if_false]
            simp only [Action.bind_apply, pure, Except.pure]
            cases Database.save schema db <;> rfl
  | createIndex name table column =>
      rw [execute, effect, Catalog.table]
      cases found : db.catalog.get? table with
      | none => exact Database.onTable_missing_bind found _ _
      | some t =>
          have change := Table.addIndex_eq_indexing (sound.tables table t found) name column
          simp only [Fallible.ok_bind]
          cases made : t.indexing name column with
          | error e =>
              rw [made] at change
              exact Database.onTable_failed found change _
          | ok t' =>
              rw [made] at change
              have named := (Table.indexing_name made).trans (sound.filed table t found)
              exact Database.changed_apply found change named _
  | insert table columns values =>
      rw [execute, effect, Catalog.table]
      cases found : db.catalog.get? table with
      | none => exact Database.onTable_missing_bind found _ _
      | some t =>
          have change := Table.insertValues_apply (sound.tables table t found) columns values
          simp only [Fallible.ok_bind]
          cases made : t.given columns values >>= t.insertion with
          | error e =>
              rw [made] at change
              exact Database.onTable_failed found change _
          | ok rows =>
              rw [made] at change
              exact Database.changed_apply found change (sound.filed table t found) _
  | update table condition assignments =>
      exact Database.counted_apply sound table
        (fun t table => Table.update_apply table condition assignments)
        (fun t rows => Table.revision_none) .updated
  | delete table condition =>
      exact Database.counted_apply sound table
        (fun t table => Table.delete_apply table condition)
        (fun t rows => Table.removal_none) .deleted

theorem isQuery_source (table : String) (condition : Option (Condition Value))
    (join : Option JoinSpec) : (source table condition join).isQuery = true := by
  cases join with
  | none => rfl
  | some spec => cases condition <;> rfl

theorem isQuery_query {source : Plan} (h : source.isQuery = true) (columns : List String)
    (count : Option Nat) : (source.query columns count).isQuery = true := by
  have projected : (if columns = [] then source else source.project columns).isQuery = true := by
    split
    · exact h
    · exact h
  cases count with
  | none => exact projected
  | some n => exact projected

theorem isStatement_of_isQuery {plan : Plan} (h : plan.isQuery = true) : plan.IsStatement := by
  cases plan with
  | createTable | createIndex | insert | update | delete => cases h
  | scan | join | filter | project | limit => exact h

theorem isStatement_of_bind {statement : Statement} {params : List Value} {plan : Plan}
    (h : statement.bind params = .ok plan) : plan.IsStatement := by
  cases statement with
  | createTable name columns =>
      cases h
      exact ⟨rfl, rfl⟩
  | createIndex name table column =>
      cases h
      trivial
  | insert table columns values =>
      obtain ⟨values, -, h⟩ := Fallible.bind_eq_ok.mp h
      cases h
      trivial
  | select columns table join filter count =>
      obtain ⟨condition, -, h⟩ := Fallible.bind_eq_ok.mp h
      cases h
      exact isStatement_of_isQuery (isQuery_query (isQuery_source ..) ..)
  | update table assignments filter =>
      obtain ⟨condition, -, h⟩ := Fallible.bind_eq_ok.mp h
      obtain ⟨assignments, -, h⟩ := Fallible.bind_eq_ok.mp h
      cases h
      trivial
  | delete table filter =>
      obtain ⟨condition, -, h⟩ := Fallible.bind_eq_ok.mp h
      cases h
      trivial

theorem createTable_iff_of_bind {statement : Statement} {params : List Value} {plan : Plan}
    (h : statement.bind params = .ok plan) :
    (∃ name columns, statement = .createTable name columns) ↔
      ∃ schema, plan = .createTable schema := by
  cases statement with
  | createTable name columns =>
      cases h
      exact iff_of_true ⟨name, columns, rfl⟩ ⟨_, rfl⟩
  | createIndex name table column =>
      cases h
      exact iff_of_false nofun nofun
  | insert table columns values =>
      obtain ⟨values, -, h⟩ := Fallible.bind_eq_ok.mp h
      cases h
      exact iff_of_false nofun nofun
  | select columns table join filter count =>
      obtain ⟨condition, -, h⟩ := Fallible.bind_eq_ok.mp h
      cases h
      refine iff_of_false nofun fun ⟨schema, same⟩ => ?_
      have query := isQuery_query (isQuery_source table condition join) columns count
      rw [same] at query
      cases query
  | update table assignments filter =>
      obtain ⟨condition, -, h⟩ := Fallible.bind_eq_ok.mp h
      obtain ⟨assignments, -, h⟩ := Fallible.bind_eq_ok.mp h
      cases h
      exact iff_of_false nofun nofun
  | delete table filter =>
      obtain ⟨condition, -, h⟩ := Fallible.bind_eq_ok.mp h
      cases h
      exact iff_of_false nofun nofun

theorem isStatement_of_text {text : String} {params : List Value} {plan : Plan}
    (h : ofText text params = .ok plan) : plan.IsStatement := by
  obtain ⟨statement, -, h⟩ := Fallible.bind_eq_ok.mp h
  rw [Statement.plan] at h
  split at h
  · cases h
  · exact isStatement_of_bind h

end Plan

/-- What the statement that a text is comes to on a catalog, if it does not fail. -/
def Catalog.effect (c : Catalog) (text : String) (params : List Value) : Except Error Effect := do
  let plan ← Plan.ofText text params
  plan.effect c

/-- Carrying out a text means working out what it comes to and performing that. -/
theorem Database.execute_eq {db : Database σ} (sound : db.catalog.Sound) (text : String)
    (params : List Value) :
    execute text params db = match db.catalog.effect text params with
      | .ok effect => effect.perform db
      | .error e => .error e db := by
  simp only [execute, Catalog.effect, Action.bind_apply, Action.lift_apply]
  cases read : Plan.ofText text params with
  | error e => rfl
  | ok plan => exact plan.execute_eq (Plan.isStatement_of_text read) sound

/-! ## Effects on sound catalogs -/

/-- The tables of an effect are sound, and the new ones have new names. -/
def Effect.Sound (c : Catalog) : Effect → Prop
  | .answered _ => True
  | .changed _ t => t.Sound ∧ t.name ∈ c.names
  | .created _ t => t.Sound ∧ t.name ∉ c.names

/-- A table that stands under a name of a plan and has the columns of the one it had there. -/
structure Plan.Rewrites (plan : Plan) (c : Catalog) (t : Table) : Prop where
  named : t.name ∈ plan.tables
  columns : ∃ old, c.get? t.name = some old ∧ old.columns = t.columns

theorem Plan.Rewrites.mem_names {plan : Plan} {c : Catalog} (sound : c.Sound) {t : Table}
    (h : plan.Rewrites c t) : t.name ∈ c.names := by
  obtain ⟨old, found, -⟩ := h.columns
  exact (sound.listed t.name).mpr ⟨old, found⟩

theorem Catalog.Sound.rewrites {c : Catalog} (sound : c.Sound) {plan : Plan} {name : String}
    {old t : Table} (found : c.table name = .ok old) (member : name ∈ plan.tables)
    (named : t.name = old.name) (columns : t.columns = old.columns) : plan.Rewrites c t := by
  have found := table_eq_ok found
  have same : t.name = name := named.trans (sound.filed name old found)
  exact ⟨same ▸ member, old, same ▸ found, columns.symm⟩

/-- Everything that a plan can come to on a sound catalog. -/
theorem Plan.effect_cases {plan : Plan} {c : Catalog} (sound : c.Sound) {effect : Effect}
    (h : plan.effect c = .ok effect) :
    (∃ outcome, effect = .answered outcome ∧ ∀ schema, plan ≠ .createTable schema) ∨
    (∃ outcome t, effect = .changed outcome t ∧ t.Sound ∧ plan.Rewrites c t ∧
      ∀ schema, plan ≠ .createTable schema) ∨
    ∃ schema, plan = .createTable schema ∧ effect = .created (.tableCreated schema.name) schema ∧
      schema.checkSchema = .ok () ∧ schema.name ∉ c.names := by
  cases plan with
  | scan | join | filter | project | limit =>
      rw [Plan.effect] at h
      · obtain ⟨rows, -, h⟩ := Fallible.bind_eq_ok.mp h
        cases h
        exact .inl ⟨_, rfl, nofun⟩
      all_goals exact nofun
  | createTable schema =>
      obtain ⟨checked, h⟩ := Fallible.then_eq_ok.mp h
      split at h
      · cases h
      · rename_i new
        cases h
        refine .inr (.inr ⟨schema, rfl, rfl, checked, fun old => new ?_⟩)
        exact sound.mem_names_iff.mp old
  | createIndex name table column =>
      obtain ⟨t, found, h⟩ := Fallible.bind_eq_ok.mp h
      obtain ⟨t', made, h⟩ := Fallible.bind_eq_ok.mp h
      cases h
      refine .inr (.inl ⟨_, t', rfl, Table.sound_indexing (sound.table found) made, ?_, nofun⟩)
      exact sound.rewrites found List.mem_cons_self (Table.indexing_name made)
        (Table.indexing_columns made)
  | insert table columns values =>
      obtain ⟨t, found, h⟩ := Fallible.bind_eq_ok.mp h
      obtain ⟨rows, made, h⟩ := Fallible.bind_eq_ok.mp h
      obtain ⟨row, -, made⟩ := Fallible.bind_eq_ok.mp made
      cases h
      have valid := Table.valid_insertion (sound.table found).toValid made
      exact .inr (.inl ⟨_, _, rfl, Table.sound_withRows valid,
        sound.rewrites found List.mem_cons_self rfl rfl, nofun⟩)
  | update table condition assignments =>
      obtain ⟨t, found, h⟩ := Fallible.bind_eq_ok.mp h
      obtain ⟨⟨count, rows⟩, made, h⟩ := Fallible.bind_eq_ok.mp h
      have valid := Table.valid_revision (sound.table found).toValid made
      cases h
      unfold Effect.counted
      split
      · exact .inl ⟨_, rfl, nofun⟩
      · exact .inr (.inl ⟨_, _, rfl, Table.sound_withRows valid,
          sound.rewrites found List.mem_cons_self rfl rfl, nofun⟩)
  | delete table condition =>
      obtain ⟨t, found, h⟩ := Fallible.bind_eq_ok.mp h
      obtain ⟨⟨count, rows⟩, made, h⟩ := Fallible.bind_eq_ok.mp h
      have valid := Table.valid_removal (sound.table found).toValid made
      cases h
      unfold Effect.counted
      split
      · exact .inl ⟨_, rfl, nofun⟩
      · exact .inr (.inl ⟨_, _, rfl, Table.sound_withRows valid,
          sound.rewrites found List.mem_cons_self rfl rfl, nofun⟩)

theorem Plan.effect_sound {plan : Plan} (statement : plan.IsStatement) {c : Catalog}
    (sound : c.Sound) {effect : Effect} (h : plan.effect c = .ok effect) : effect.Sound c := by
  rcases plan.effect_cases sound h with ⟨_, rfl, -⟩ | ⟨_, t, rfl, table, rewrites, -⟩ |
    ⟨schema, rfl, rfl, checked, new⟩
  · trivial
  · exact ⟨table, rewrites.mem_names sound⟩
  · exact ⟨Table.sound_new checked statement.1 statement.2, new⟩

theorem Catalog.effect_sound {c : Catalog} (sound : c.Sound) {text : String} {params : List Value}
    {effect : Effect} (h : c.effect text params = .ok effect) : effect.Sound c := by
  obtain ⟨plan, read, h⟩ := Fallible.bind_eq_ok.mp h
  exact plan.effect_sound (Plan.isStatement_of_text read) sound h

end Tabular
