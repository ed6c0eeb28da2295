import Tabular.Proofs.Reachability
import Tabular.Proofs.RowSets

/-! # No cell is missing

Plans ask for cells and rows by position. Every row of a sound table is as wide as its columns, and
so is every row that a query gives, whatever its steps are; so no plan ever asks for a cell or a row
that does not exist, however it is built.
-/

namespace Tabular

variable {α β : Type}

/-- A computation that asks for no cell or row that does not exist, and whose result has a property if
    it has one. -/
def Gives (P : α → Prop) : Except Error α → Prop
  | .ok a => P a
  | .error e => e ≠ .outOfRange

/-- A computation that asks for no cell or row that does not exist. -/
def Safe (x : Except Error α) : Prop := Gives (fun _ => True) x

theorem gives_ok {P : α → Prop} {a : α} (h : P a) : Gives P (.ok a) := h

theorem safe_ok (a : α) : Safe (.ok a) := trivial

theorem gives_error {P : α → Prop} {e : Error} (other : e ≠ .outOfRange) : Gives P (.error e) :=
  other

theorem Gives.bind {x : Except Error α} {f : α → Except Error β} {P : α → Prop} {Q : β → Prop}
    (first : Gives P x) (next : ∀ a, x = .ok a → P a → Gives Q (f a)) : Gives Q (x >>= f) := by
  cases x with
  | error e => exact first
  | ok a => exact next a rfl first

theorem Safe.bind {x : Except Error α} {f : α → Except Error β} {P : β → Prop} (first : Safe x)
    (next : ∀ a, x = .ok a → Gives P (f a)) : Gives P (x >>= f) :=
  Gives.bind first fun a h _ => next a h

theorem safe_mapM {f : α → Except Error β} {items : List α} (h : ∀ a ∈ items, Safe (f a)) :
    Safe (items.mapM f) := by
  induction items with
  | nil => exact safe_ok []
  | cons head rest ih =>
      obtain ⟨here, others⟩ := List.forall_mem_cons.mp h
      rw [List.mapM_cons]
      exact here.bind fun b _ => (ih others).bind fun bs _ => safe_ok (b :: bs)

theorem safe_forM {f : α → Except Error PUnit} {items : List α} (h : ∀ a ∈ items, Safe (f a)) :
    Safe (items.forM f) := by
  induction items with
  | nil => exact safe_ok _
  | cons head rest ih =>
      obtain ⟨here, others⟩ := List.forall_mem_cons.mp h
      rw [List.forM_eq_forM, List.forM_cons]
      exact here.bind fun _ _ => ih others

theorem Column.safe_stored (c : Column) (v : Value) : Safe (c.stored v) := by
  unfold stored
  split
  · split
    · exact safe_ok _
    · exact gives_error (by simp)
  · exact safe_ok _
  · split
    · exact safe_ok _
    · exact gives_error (by simp)

/-! ## Changes of a table -/

namespace Table

variable {t : Table}

theorem safe_checkSchema (t : Table) : Safe t.checkSchema := by
  rw [checkSchema]
  split
  · exact gives_error (by simp)
  · cases firstRepeated? [] t.columnNames with
    | some name => exact gives_error (by simp)
    | none => exact safe_ok _

theorem safe_columnPosition (t : Table) (name : String) : Safe (t.columnPosition name) := by
  by_cases known : name ∈ t.columnNames
  · rw [columnPosition_of_mem known]
    exact safe_ok _
  · rw [columnPosition_of_not_mem known]
    exact gives_error (by simp)

theorem safe_indexing (t : Table) (name column : String) : Safe (t.indexing name column) :=
  (t.safe_columnPosition column).bind fun _ _ => safe_ok _

theorem safe_given (t : Table) (columns : List String) (values : List Value) :
    Safe (t.given columns values) := by
  rw [given]
  split
  · exact safe_ok _
  · rw [assembleRow]
    split
    · exact gives_error (by simp)
    · refine (safe_forM fun name _ => ?_).bind fun _ _ => safe_ok _
      exact (t.safe_columnPosition name).bind fun _ _ => safe_ok _

theorem safe_insertion (valid : t.Valid) (row : Row) : Safe (t.insertion row) := by
  have stored : Safe (t.storedRow row) := by
    rw [storedRow]
    split
    · exact gives_error (by simp)
    · exact safe_mapM fun e _ => e.1.safe_stored e.2
  refine stored.bind fun row accepted => ?_
  have wide := (storedRow_eq_ok accepted).1
  refine Safe.bind (safe_forM fun e member => ?_) fun _ _ => safe_ok _
  obtain ⟨⟨c, v⟩, p⟩ := e
  have place := ((mem_zip_zipIdx_iff wide).mp member).1
  have inside : ∀ old ∈ t.rows, p < old.length := fun old member =>
    valid.widths old member ▸ List.snd_lt_of_mem_zipIdx place
  dsimp only
  split
  · rw [holds_eq_ok inside, Fallible.ok_bind]
    split
    · exact gives_error (by simp)
    · exact safe_ok _
  · exact safe_ok _

theorem safe_matching (t : Table) (condition : Condition Value) : Safe (t.matching condition) := by
  rw [matching]
  split
  · exact safe_ok _
  · exact gives_error (by simp)

theorem safe_select (valid : t.Valid) (filter : Option (Condition Value)) :
    Safe (t.select filter) := by
  cases filter with
  | none => exact safe_ok _
  | some condition =>
      rw [select_eq valid]
      exact t.safe_matching condition

/-- The rows that a change concerns exist. -/
theorem lt_of_mem_select (valid : t.Valid) {filter : Option (Condition Value)} {targets : List Nat}
    (h : t.select filter = .ok targets) : ∀ i ∈ targets, i < t.rows.length := by
  intro i member
  cases filter with
  | none =>
      cases h
      exact List.mem_range.mp member
  | some condition =>
      rw [select_eq valid, matching] at h
      split at h
      · cases h
        exact Row.lt_of_mem_positions member
      · cases h

theorem safe_writtenCell (valid : t.Valid) (targets : List Nat) (name : String) (v : Value) :
    Safe (t.writtenCell targets name v) := by
  by_cases known : name ∈ t.columnNames
  · obtain ⟨c, found⟩ := column_of_mem known
    rw [writtenCell, found]
    refine (c.safe_stored v).bind fun stored _ => ?_
    dsimp only
    split
    · rw [collides_eq_ok (valid.wide known), Fallible.ok_bind]
      split
      · exact gives_error (by simp)
      · exact safe_ok _
    · exact safe_ok _
  · rw [writtenCell, column_of_not_mem known]
    exact gives_error (by simp)

theorem safe_revision (valid : t.Valid) (filter : Option (Condition Value))
    (assignments : SortedMap String Value) : Safe (t.revision filter assignments) :=
  (safe_select valid filter).bind fun targets _ =>
    (safe_mapM fun e _ => safe_writtenCell valid targets e.1 e.2).bind fun _ _ => safe_ok _

theorem safe_removal (valid : t.Valid) (filter : Option (Condition Value)) :
    Safe (t.removal filter) :=
  (safe_select valid filter).bind fun _ _ => safe_ok _

end Table

/-! ## Steps of a query -/

namespace RowSet

variable {s left right : RowSet}

theorem Rectangular.gives_filter (even : s.Rectangular) (condition : Condition Value) :
    Gives Rectangular (s.filter condition) := by
  rw [filter_eq even]
  split
  · exact gives_ok (even.satisfying condition)
  · exact gives_error (by simp)

theorem Rectangular.gives_project (even : s.Rectangular) (columns : List String) :
    Gives Rectangular (s.project columns) := by
  rw [project_eq even]
  split
  · exact gives_error (by simp)
  · exact gives_ok (s.rectangular_choosing columns)

theorem Rectangular.gives_join (even : left.Rectangular) (even' : right.Rectangular)
    (on : String × String) (outer : Bool) : Gives Rectangular (left.join right on outer) := by
  obtain ⟨a, b⟩ := on
  rw [join_eq even even', joinPositions_eq]
  split
  · exact gives_ok (rectangular_joined left right outer _)
  · split
    · exact gives_ok (rectangular_joined left right outer _)
    · exact gives_error (by simp)

/-- The cell that is asked for is there whenever the row and the column are. -/
theorem Rectangular.cell?_eq_ok (even : s.Rectangular) (number : Nat) (column : String) :
    s.cell? number column =
      .ok (if column ∈ s.columns then s.rows[number]?.map (s.value column) else none) := by
  rw [cell?]
  by_cases known : column ∈ s.columns
  · rw [idxOf?_of_mem known, if_pos known]
    cases here : s.rows[number]? with
    | none => rfl
    | some row =>
        dsimp only
        rw [even.cell_eq_ok (List.mem_of_getElem? here) known]
        rfl
  · rw [List.idxOf?_eq_none_iff.mpr known, if_neg known]
    rfl

end RowSet

theorem Table.gives_read {t : Table} (sound : t.Sound) (filter : Option (Condition Value)) :
    Gives RowSet.Rectangular (t.read filter) := by
  rw [read_eq sound]
  cases filter with
  | none => exact gives_ok sound.rectangular
  | some condition => exact sound.rectangular.gives_filter condition

theorem Catalog.safe_table (c : Catalog) (name : String) : Safe (c.table name) := by
  rw [table]
  split
  · exact safe_ok _
  · exact gives_error (by simp)

/-! ## Whole plans -/

/-- The rows of an outcome, if it has any, are as wide as their columns. -/
def Outcome.Rectangular : Outcome → Prop
  | .selected rows => rows.Rectangular
  | _ => True

theorem Outcome.Rectangular.cell?_eq_ok {outcome : Outcome} (even : outcome.Rectangular)
    (number : Nat) (column : String) : ∃ v, outcome.cell? number column = .ok v := by
  cases outcome with
  | selected s => exact ⟨_, RowSet.Rectangular.cell?_eq_ok even number column⟩
  | tableCreated | indexCreated | rowInserted | updated | deleted => exact ⟨none, rfl⟩

/-- Every table that a plan creates is created without rows and indexes. -/
def Plan.CreatesEmpty : Plan → Prop
  | .createTable schema => schema.rows = [] ∧ schema.indexes = ∅
  | .join left right _ _ => left.CreatesEmpty ∧ right.CreatesEmpty
  | .filter source _ | .project source _ | .limit source _ => source.CreatesEmpty
  | _ => True

theorem Directory.refusalOf_ne_outOfRange (d : Directory) (name : String) :
    d.refusalOf name ≠ some .outOfRange := by
  rw [refusalOf]
  split
  · simp
  · split
    · simp
    · simp

namespace Database

variable {σ : Type}

/-- How a plan may end: the catalog is sound, the outcome has no missing cell, and none has been
    asked for. -/
def Ends : EStateM.Result Error (Database σ) Outcome → Prop
  | .ok outcome db => db.catalog.Sound ∧ outcome.Rectangular
  | .error e db => db.catalog.Sound ∧ e ≠ .outOfRange

theorem Ends.sound {x : Action (Database σ) Outcome} {db : Database σ} (ends : Ends (x db)) :
    (Action.after x db).catalog.Sound := by
  rw [Action.after]
  cases ended : x db with
  | ok outcome db' =>
      rw [ended] at ends
      exact ends.1
  | error e db' =>
      rw [ended] at ends
      exact ends.1

/-- A step that works on the rows of another plan. -/
theorem Ends.rows {x : Action (Database σ) Outcome} {db : Database σ} (source : Ends (x db))
    {f : RowSet → Action (Database σ) Outcome}
    (next : ∀ s db', s.Rectangular → db'.catalog.Sound → Ends (f s db')) :
    Ends ((do f (← (← x).rowSet)) db) := by
  simp only [Action.bind_apply, Action.lift_apply]
  cases ended : x db with
  | error e db' =>
      rw [ended] at source
      exact source
  | ok outcome db' =>
      rw [ended] at source
      cases outcome with
      | selected s => exact next s db' source.2 source.1
      | tableCreated | indexCreated | rowInserted | updated | deleted => exact ⟨source.1, nofun⟩

theorem ends_selected {x : Except Error RowSet} (steady : Gives RowSet.Rectangular x) {db : Database σ}
    (sound : db.catalog.Sound) :
    Ends ((do return .selected (← x) : Action (Database σ) Outcome) db) := by
  simp only [Action.bind_apply, Action.lift_apply]
  cases x with
  | error e => exact ⟨sound, steady⟩
  | ok s => exact ⟨sound, steady⟩

section

variable [Store σ] [LawfulStore σ] {db : Database σ}
-- What a store refuses is never put down to a missing cell or row.
variable (honest : ∀ (store : σ) name, refusal? store name ≠ some .outOfRange)
include honest

theorem ends_perform (sound : db.catalog.Sound) {effect : Effect}
    (tables : effect.Sound db.catalog) (even : effect.outcome.Rectangular) :
    Ends (effect.perform db) := by
  cases effect with
  | answered outcome => exact ⟨sound, even⟩
  | changed outcome t =>
      rw [Effect.perform_changed]
      cases refused : refusal? db.store t.name with
      | some e => exact ⟨sound.put tables.1, fun same => honest _ _ (same ▸ refused)⟩
      | none => exact ⟨sound.put tables.1, even⟩
  | created outcome t =>
      rw [Effect.perform_created]
      cases refused : refusal? db.store t.name with
      | some e => exact ⟨sound, fun same => honest _ _ (same ▸ refused)⟩
      | none => exact ⟨sound.put tables.1, even⟩

theorem ends_statement {plan : Plan} (statement : plan.IsStatement) (sound : db.catalog.Sound)
    (gives : Gives (·.outcome.Rectangular) (plan.effect db.catalog)) : Ends (plan.execute db) := by
  rw [plan.execute_eq statement sound]
  cases reached : plan.effect db.catalog with
  | error e =>
      rw [reached] at gives
      exact ⟨sound, gives⟩
  | ok effect =>
      rw [reached] at gives
      exact ends_perform honest sound (plan.effect_sound statement sound reached) gives

/-- The induction is on the plan, over all databases: what stands below a query may change tables. -/
theorem ends_execute {plan : Plan} (empty : plan.CreatesEmpty) (sound : db.catalog.Sound) :
    Ends (plan.execute db) := by
  induction plan generalizing db with
  | createTable schema =>
      refine ends_statement honest empty sound ?_
      refine schema.safe_checkSchema.bind fun _ _ => ?_
      split
      · exact gives_error (by simp)
      · exact gives_ok trivial
  | createIndex name table column =>
      refine ends_statement honest trivial sound ?_
      refine (db.catalog.safe_table table).bind fun t _ => ?_
      exact (t.safe_indexing name column).bind fun _ _ => gives_ok trivial
  | insert table columns values =>
      refine ends_statement honest trivial sound ?_
      refine (db.catalog.safe_table table).bind fun t found => ?_
      have rows : Safe (t.given columns values >>= t.insertion) :=
        (t.safe_given columns values).bind fun row _ =>
          Table.safe_insertion (sound.table found).toValid row
      exact rows.bind fun _ _ => gives_ok trivial
  | scan table condition =>
      refine ends_statement honest rfl sound ?_
      have read : Gives RowSet.Rectangular (Plan.rows db.catalog (.scan table condition)) :=
        (db.catalog.safe_table table).bind fun t found =>
          Table.gives_read (sound.table found) condition
      exact read.bind fun _ _ even => gives_ok even
  | join left right on outer ihl ihr =>
      refine (ihl empty.1 sound).rows fun l db' even sound => ?_
      refine (ihr empty.2 sound).rows fun r db' even' sound => ?_
      exact ends_selected (even.gives_join even' on outer) sound
  | filter source condition ih =>
      exact (ih empty sound).rows fun s db' even sound =>
        ends_selected (even.gives_filter condition) sound
  | project source columns ih =>
      exact (ih empty sound).rows fun s db' even sound =>
        ends_selected (even.gives_project columns) sound
  | limit source count ih =>
      exact (ih empty sound).rows fun s db' even sound => ⟨sound, even.limit count⟩
  | update table condition assignments =>
      refine ends_statement honest trivial sound ?_
      refine (db.catalog.safe_table table).bind fun t found => ?_
      refine (Table.safe_revision (sound.table found).toValid condition assignments).bind fun result _ => ?_
      exact gives_ok (Effect.outcome_counted .updated t result ▸ trivial)
  | delete table condition =>
      refine ends_statement honest trivial sound ?_
      refine (db.catalog.safe_table table).bind fun t found => ?_
      refine (Table.safe_removal (sound.table found).toValid condition).bind fun result _ => ?_
      exact gives_ok (Effect.outcome_counted .deleted t result ▸ trivial)

omit honest in
/-- The databases between the steps of plans, which may be of any form. -/
inductive Live : Database σ → Prop
  | reachable {db : Database σ} (h : db.Reachable) : Live db
  | planned {db : Database σ} (h : Live db) {plan : Plan} (empty : plan.CreatesEmpty) :
    Live (Action.after plan.execute db)

theorem Live.sound (h : db.Live) : db.catalog.Sound := by
  induction h with
  | reachable h => exact h.sound
  | @planned db h plan empty ih =>
      have ends := ends_execute honest empty ih
      rw [Action.after]
      cases ended : plan.execute db with
      | ok outcome db' =>
          rw [ended] at ends
          exact ends.1
      | error e db' =>
          rw [ended] at ends
          exact ends.1

/-- Whatever plan is carried out, no cell or row is asked for that does not exist, and none is missing
    from what it gives. The rows that a change concerns exist. -/
theorem nothing_missing (h : db.Live) :
    (∀ plan : Plan, plan.CreatesEmpty → Action.result plan.execute db ≠ .error .outOfRange ∧
      ∀ outcome, Action.result plan.execute db = .ok outcome → outcome.Rectangular ∧
        ∀ number column, ∃ v, outcome.cell? number column = .ok v) ∧
    ∀ name t filter targets, db.table? name = some t → t.select filter = .ok targets →
      ∀ i ∈ targets, i < t.rows.length := by
  have sound := h.sound honest
  refine ⟨fun plan empty => ?_, fun name t filter targets found chosen =>
    Table.lt_of_mem_select (sound.tables name t found).toValid chosen⟩
  have ends := ends_execute honest empty sound
  rw [Action.result]
  cases ended : plan.execute db with
  | error e db' =>
      rw [ended] at ends
      exact ⟨fun same => ends.2 (Except.error.inj same), nofun⟩
  | ok outcome db' =>
      rw [ended] at ends
      refine ⟨nofun, fun _ same => Except.ok.inj same ▸ ⟨ends.2, fun number column => ?_⟩⟩
      exact ends.2.cell?_eq_ok number column

end

theorem repeated_columns_readable :
    let db := (new (Directory.empty "d")).afterAll
      [("CREATE TABLE t (a INT, b INT)", []), ("INSERT INTO t VALUES (1, 2)", [])]
    let twice := Plan.project (.scan "t" none) ["b", "b"]
    let plan := Plan.project (.join twice (.scan "t" none) ("a", "b") true) ["b", "a", "b"]
    Action.result plan.execute db =
        .ok (.selected ⟨["b", "a", "b"], [[.integer 2, .null, .integer 2]]⟩) ∧
      ∀ number column, ∃ v,
        RowSet.cell? ⟨["b", "a", "b"], [[.integer 2, .null, .integer 2]]⟩ number column = .ok v := by
  intro db twice plan
  have live : db.Live := .reachable
    ((Reachable.opened (rfl : open? (Directory.empty "d") = .ok (new (.empty "d")))).afterAll _)
  have answered : Action.result plan.execute db =
      .ok (.selected ⟨["b", "a", "b"], [[.integer 2, .null, .integer 2]]⟩) := by
    decide +kernel
  have complete := (nothing_missing Directory.refusalOf_ne_outOfRange live).1 plan ⟨trivial, trivial⟩
  exact ⟨answered, (complete.2 _ answered).2⟩

end Database

end Tabular
