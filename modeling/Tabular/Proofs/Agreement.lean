import Tabular.Proofs.Requests

/-! # Answers depend on tables alone

What a statement comes to depends on the tables that it names and on nothing else in the catalog. So
two databases on one store that know the same tables under the same names give the same answers from
then on. The order in which the tables were registered does not matter, so a database agrees with one
that is opened on its store if the store gives back its tables.
-/

namespace Tabular

/-- The tables that a statement names. -/
def Statement.tables : Statement → List String
  | .createTable name _ => [name]
  | .createIndex _ table _ | .insert table _ _ | .update table _ _ | .delete table _ => [table]
  | .select _ table join _ _ => table :: join.toList.map (·.table)

/-- The tables that the statement names that a text is. -/
def Statement.tablesOf (text : String) : List String :=
  match parse text with
  | .ok statement => statement.tables
  | .error _ => []

theorem Plan.tables_source (table : String) (condition : Option (Condition Value))
    (join : Option JoinSpec) :
    (source table condition join).tables = table :: join.toList.map (·.table) := by
  cases join with
  | none => rfl
  | some spec => cases condition <;> rfl

theorem Plan.tables_query (source : Plan) (columns : List String) (count : Option Nat) :
    (source.query columns count).tables = source.tables := by
  have projected : (if columns = [] then source else source.project columns).tables =
      source.tables := by
    split
    · rfl
    · rfl
  cases count with
  | none => exact projected
  | some n => exact projected

theorem Statement.tables_of_bind {statement : Statement} {params : List Value} {plan : Plan}
    (h : statement.bind params = .ok plan) : plan.tables = statement.tables := by
  cases statement with
  | createTable name columns =>
      cases h
      rfl
  | createIndex name table column =>
      cases h
      rfl
  | insert table columns values =>
      obtain ⟨values, -, h⟩ := Fallible.bind_eq_ok.mp h
      cases h
      rfl
  | select columns table join filter count =>
      obtain ⟨condition, -, h⟩ := Fallible.bind_eq_ok.mp h
      cases h
      rw [Plan.tables_query, Plan.tables_source]
      rfl
  | update table assignments filter =>
      obtain ⟨condition, -, h⟩ := Fallible.bind_eq_ok.mp h
      obtain ⟨assignments, -, h⟩ := Fallible.bind_eq_ok.mp h
      cases h
      rfl
  | delete table filter =>
      obtain ⟨condition, -, h⟩ := Fallible.bind_eq_ok.mp h
      cases h
      rfl

theorem Plan.tables_ofText {text : String} {params : List Value} {plan : Plan}
    (h : ofText text params = .ok plan) : plan.tables = Statement.tablesOf text := by
  obtain ⟨statement, parsed, planned⟩ := Fallible.bind_eq_ok.mp h
  rw [Statement.plan] at planned
  split at planned
  · cases planned
  · rw [Statement.tablesOf, Fallible.mapError_eq_ok.mp parsed]
    exact Statement.tables_of_bind planned

/-! ## The same tables in two catalogs -/

variable {c c' : Catalog}

theorem Catalog.table_congr {name : String} (same : c.get? name = c'.get? name) :
    c.table name = c'.table name := by
  rw [table, table, same]

theorem Plan.rows_congr {plan : Plan} (tables : ∀ name ∈ plan.tables, c.get? name = c'.get? name) :
    plan.rows c = plan.rows c' := by
  induction plan with
  | createTable | createIndex | insert | update | delete => rfl
  | scan table condition => rw [rows, rows, Catalog.table_congr (tables table List.mem_cons_self)]
  | join left right on outer ihl ihr =>
      rw [rows, rows, ihl fun name member => tables name (List.mem_append_left _ member),
        ihr fun name member => tables name (List.mem_append_right _ member)]
  | filter source condition ih => rw [rows, rows, ih tables]
  | project source columns ih => rw [rows, rows, ih tables]
  | limit source count ih => rw [rows, rows, ih tables]

theorem Plan.effect_congr {plan : Plan}
    (tables : ∀ name ∈ plan.tables, c.get? name = c'.get? name) :
    plan.effect c = plan.effect c' := by
  cases plan with
  | scan | join | filter | project | limit => simp only [effect, Plan.rows_congr tables]
  | createTable schema => rw [effect, effect, tables schema.name List.mem_cons_self]
  | createIndex name table column =>
      rw [effect, effect, Catalog.table_congr (tables table List.mem_cons_self)]
  | insert table columns values =>
      rw [effect, effect, Catalog.table_congr (tables table List.mem_cons_self)]
  | update table condition assignments =>
      rw [effect, effect, Catalog.table_congr (tables table List.mem_cons_self)]
  | delete table condition =>
      rw [effect, effect, Catalog.table_congr (tables table List.mem_cons_self)]

/-- What a text comes to depends on the tables that it names. -/
theorem Catalog.effect_congr {text : String}
    (tables : ∀ name ∈ Statement.tablesOf text, c.get? name = c'.get? name) (params : List Value) :
    c.effect text params = c'.effect text params := by
  rw [effect, effect]
  cases read : Plan.ofText text params with
  | error e => rfl
  | ok plan =>
      rw [← Plan.tables_ofText read] at tables
      exact Plan.effect_congr tables

namespace Database

/-- Two databases on one store that know the same tables under the same names. -/
structure Agrees {σ : Type} (db db' : Database σ) : Prop where
  left : db.catalog.Sound
  right : db'.catalog.Sound
  stores : db.store = db'.store
  tables : ∀ name, db.catalog.get? name = db'.catalog.get? name

variable {σ : Type}

theorem Agrees.names {db db' : Database σ} (agrees : db.Agrees db') :
    db.tableNames.Perm db'.tableNames := by
  refine (List.perm_ext_iff_of_nodup agrees.left.names agrees.right.names).mpr fun name => ?_
  have same := agrees.tables name
  exact agrees.left.mem_names_iff.trans (same ▸ agrees.right.mem_names_iff.symm)

theorem Agrees.put {db db' : Database σ} (agrees : db.Agrees db') (t : Table) (name : String) :
    (db.catalog.put t.name t).get? name = (db'.catalog.put t.name t).get? name := by
  rw [Catalog.get?_put, Catalog.get?_put, agrees.tables]

variable [Store σ] [LawfulStore σ]

theorem Agrees.perform {db db' : Database σ} (agrees : db.Agrees db') (effect : Effect) :
    Action.result effect.perform db = Action.result effect.perform db' ∧
      (Action.after effect.perform db).store = (Action.after effect.perform db').store ∧
      ∀ name, (Action.after effect.perform db).catalog.get? name =
        (Action.after effect.perform db').catalog.get? name := by
  cases effect with
  | answered outcome => exact ⟨rfl, agrees.stores, agrees.tables⟩
  | changed outcome t =>
      simp only [Action.result, Action.after, Effect.perform_changed, agrees.stores]
      cases refusal? db'.store t.name with
      | some e => exact ⟨rfl, rfl, agrees.put t⟩
      | none => exact ⟨rfl, rfl, agrees.put t⟩
  | created outcome t =>
      simp only [Action.result, Action.after, Effect.perform_created, agrees.stores]
      cases refusal? db'.store t.name with
      | some e => exact ⟨rfl, agrees.stores, agrees.tables⟩
      | none => exact ⟨rfl, rfl, agrees.put t⟩

theorem Agrees.execute {db db' : Database σ} (agrees : db.Agrees db') (text : String)
    (params : List Value) :
    Action.result (execute text params) db = Action.result (execute text params) db' ∧
      (Action.after (execute text params) db).Agrees (Action.after (execute text params) db') := by
  have same : Action.result (Database.execute text params) db =
        Action.result (Database.execute text params) db' ∧
      (Action.after (Database.execute text params) db).store =
        (Action.after (Database.execute text params) db').store ∧
      ∀ name, (Action.after (Database.execute text params) db).catalog.get? name =
        (Action.after (Database.execute text params) db').catalog.get? name := by
    simp only [Action.result, Action.after, execute_eq agrees.left, execute_eq agrees.right,
      Catalog.effect_congr (fun name _ => agrees.tables name)]
    cases db'.catalog.effect text params with
    | error e => exact ⟨rfl, agrees.stores, agrees.tables⟩
    | ok effect => exact agrees.perform effect
  obtain ⟨results, stores, tables⟩ := same
  exact ⟨results, sound_execute agrees.left text params, sound_execute agrees.right text params,
    stores, tables⟩

theorem Agrees.answers {db db' : Database (Refusable σ)} (agrees : db.Agrees db')
    (requests : List Request) : db.answers requests = db'.answers requests := by
  induction requests generalizing db db' with
  | nil => rfl
  | cons head rest ih =>
      have stores : (db.told head.refusing).store = (db'.told head.refusing).store := by
        rw [told, told, agrees.stores]
      have told : (db.told head.refusing).Agrees (db'.told head.refusing) :=
        ⟨agrees.left, agrees.right, stores, agrees.tables⟩
      obtain ⟨same, after⟩ := told.execute head.text head.params
      have later := ih after
      rw [Database.answers, Database.answers]
      exact congrArg₂ List.cons same later

/-- A database agrees with the one that is opened on a store with the same tables. -/
theorem agrees_open {db : Database σ} (sound : db.catalog.Sound) {tables : List Table}
    (loaded : Store.loadAll db.store = .ok tables) (different : (tables.map (·.name)).Nodup)
    (same : ∀ t, t ∈ tables ↔ db.table? t.name = some t) :
    ∃ db', open? db.store = .ok db' ∧ db'.Agrees db := by
  have opened := open?_of_loadAll loaded
  refine ⟨_, opened, sound_open opened, sound, rfl, fun name => ?_⟩
  by_cases listed : name ∈ tables.map (·.name)
  · obtain ⟨t, member, rfl⟩ := List.mem_map.mp listed
    have found := (same t).mp member
    rw [Catalog.get?_foldl_put different _ ∅ member, (sound.tables t.name t found).current]
    exact found.symm
  · rw [Catalog.get?_foldl_put_of_not_mem _ ∅ listed]
    refine Eq.symm (Option.eq_none_iff_forall_not_mem.mpr fun t found => listed ?_)
    have named := sound.filed name t found
    rw [← named] at found ⊢
    exact List.mem_map_of_mem ((same t).mpr found)

end Database

end Tabular
