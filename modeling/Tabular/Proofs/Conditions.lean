import Tabular.Proofs.Assignments
import Tabular.Proofs.Reachability

/-! # Statements with a condition

A query, a change and a removal with one condition concern the same rows, whether an index helps to
find them or not. A condition on a key concerns one row at most.
-/

namespace Tabular

variable {σ : Type} [Store σ] [LawfulStore σ] {db db' : Database σ}

theorem Effect.perform_eq_ok {effect : Effect} {outcome : Outcome}
    (h : effect.perform db = .ok outcome db') : outcome = effect.outcome := by
  cases effect with
  | answered outcome' =>
      cases h
      rfl
  | changed outcome' t =>
      rw [perform_changed] at h
      split at h <;> cases h
      rfl
  | created outcome' t =>
      rw [perform_created] at h
      split at h <;> cases h
      rfl

/-- A change of rows that the store accepts leaves the changed table behind. -/
theorem Effect.perform_counted {t : Table} (table : t.Sound) (found : db.table? t.name = some t)
    (accepted : refusal? db.store t.name = none) (outcome : Nat → Outcome) {count : Nat}
    {rows : List Row} (same : count = 0 → rows = t.rows) :
    ∃ db', (counted outcome t (count, rows)).perform db = .ok (outcome count) db' ∧
      db'.table? t.name = some (t.withRows rows) := by
  unfold counted
  split
  · rename_i none
    refine ⟨db, rfl, ?_⟩
    rw [same none, table.current]
    exact found
  · rw [perform_changed]
    have free : refusal? db.store (t.withRows rows).name = none := accepted
    rw [free]
    exact ⟨_, rfl, Catalog.get?_put_self ..⟩

theorem Plan.execute_eq_ok {plan : Plan} (statement : plan.IsStatement) (sound : db.catalog.Sound)
    {outcome : Outcome} (h : plan.execute db = .ok outcome db') :
    ∃ effect, plan.effect db.catalog = .ok effect ∧ outcome = effect.outcome := by
  rw [execute_eq statement sound] at h
  cases reached : plan.effect db.catalog with
  | error e =>
      rw [reached] at h
      cases h
  | ok effect =>
      rw [reached] at h
      exact ⟨effect, rfl, Effect.perform_eq_ok h⟩

namespace Database

omit [LawfulStore σ] in
/-- To carry out a text is to carry out its plan. -/
theorem execute_of_plan {text : String} {params : List Value} {plan : Plan}
    (planned : Plan.ofText text params = .ok plan) :
    (execute text params : Action (Database σ) Outcome) = plan.execute := by
  funext db
  simp only [execute, Action.bind_apply, Action.lift_apply, planned]

section

variable {name : String} {t : Table} {filter : Option (Condition Value)}

omit [LawfulStore σ] in
theorem execute_scan (table : t.Sound) (found : db.table? name = some t)
    (filter : Option (Condition Value)) :
    (Plan.scan name filter).execute db = match t.checkFilter filter with
      | .ok _ => .ok (.selected ⟨t.columnNames, t.rows.filter (t.satisfies filter)⟩) db
      | .error e => .error e db := by
  have known : db.catalog.table name = .ok t := Catalog.table_of_get? found
  rw [Plan.execute_query rfl]
  simp only [Plan.rows, known, Fallible.ok_bind, Table.read_eq_satisfying table]
  cases t.checkFilter filter <;> rfl

theorem updated_of_execute (sound : db.catalog.Sound) (found : db.table? name = some t)
    {assignments : SortedMap String Value} {outcome : Outcome}
    (h : (Plan.update name filter assignments).execute db = .ok outcome db') :
    outcome = .updated (t.rows.filter (t.satisfies filter)).length := by
  have statement : (Plan.update name filter assignments).IsStatement := trivial
  obtain ⟨effect, reached, rfl⟩ := Plan.execute_eq_ok statement sound h
  obtain ⟨u, known, reached⟩ := Fallible.bind_eq_ok.mp reached
  obtain ⟨⟨count, rows⟩, revised, reached⟩ := Fallible.bind_eq_ok.mp reached
  cases reached
  have same : t = u := Option.some.inj (found.symm.trans (Catalog.table_eq_ok known))
  subst same
  obtain ⟨-, -, rfl, -⟩ := (Table.revision_eq_ok_iff (sound.table known).toValid).mp revised
  exact Effect.outcome_counted ..

omit [Store σ] [LawfulStore σ] in
/-- What a removal comes to. -/
theorem effect_delete (sound : db.catalog.Sound) (found : db.table? name = some t)
    (filter : Option (Condition Value)) :
    (Plan.delete name filter).effect db.catalog = (fun _ => Effect.counted .deleted t
      ((t.rows.filter (t.satisfies filter)).length,
        t.rows.filter fun row => !t.satisfies filter row)) <$> t.checkFilter filter := by
  have known : db.catalog.table name = .ok t := Catalog.table_of_get? found
  simp only [Plan.effect, known, Fallible.ok_bind,
    Table.removal_eq (sound.tables name t found).toValid]
  cases t.checkFilter filter <;> rfl

theorem deleted_of_execute (sound : db.catalog.Sound) (found : db.table? name = some t)
    {outcome : Outcome} (h : (Plan.delete name filter).execute db = .ok outcome db') :
    outcome = .deleted (t.rows.filter (t.satisfies filter)).length := by
  have statement : (Plan.delete name filter).IsStatement := trivial
  obtain ⟨effect, reached, rfl⟩ := Plan.execute_eq_ok statement sound h
  rw [effect_delete sound found] at reached
  obtain ⟨-, -, rfl⟩ := Fallible.map_eq_ok.mp reached
  exact Effect.outcome_counted ..

theorem execute_delete (sound : db.catalog.Sound) (found : db.table? name = some t)
    (accepted : refusal? db.store name = none) (known : t.checkFilter filter = .ok ()) :
    ∃ db', (Plan.delete name filter).execute db =
        .ok (.deleted (t.rows.filter (t.satisfies filter)).length) db' ∧
      db'.table? name = some (t.withRows (t.rows.filter fun row => !t.satisfies filter row)) := by
  have named := sound.filed name t found
  subst named
  have same : (t.rows.filter (t.satisfies filter)).length = 0 →
      (t.rows.filter fun row => !t.satisfies filter row) = t.rows := by
    intro none
    have fails := List.filter_eq_nil_iff.mp (List.length_eq_zero_iff.mp none)
    simpa using fails
  have statement : (Plan.delete t.name filter).IsStatement := trivial
  rw [Plan.execute_eq statement sound, effect_delete sound found, known]
  exact Effect.perform_counted (sound.tables _ t found) found accepted .deleted same

end

/-- `SELECT *`, which is planned as a scan, `DELETE` and `UPDATE` with one condition agree on the rows
    that it selects. Either it cannot be tested, or what the query answers is what the removal takes
    away, position by position, and what a change counts. -/
theorem selections_agree (h : db.Reachable) (name : String) (filter : Option (Condition Value))
    (accepted : refusal? db.store name = none) :
    (∃ e, (Plan.scan name filter).execute db = .error e db ∧
      (Plan.delete name filter).execute db = .error e db) ∨
    ∃ t t' db' rows,
      db.table? name = some t ∧ db'.table? name = some t' ∧
      (t.chosen filter).mapM t.row = .ok rows ∧
      (Plan.scan name filter).execute db = .ok (.selected ⟨t.columnNames, rows⟩) db ∧
      (Plan.delete name filter).execute db = .ok (.deleted rows.length) db' ∧
      t'.rows = (t.rows.zipIdx.filter fun e => e.2 ∉ t.chosen filter).map Prod.fst ∧
      t'.columns = t.columns ∧ t'.indexNames = t.indexNames ∧ t'.WellIndexed ∧
      (Plan.scan name filter).execute db' = .ok (.selected ⟨t.columnNames, []⟩) db' ∧
      ∀ assignments outcome db'',
        (Plan.update name filter assignments).execute db = .ok outcome db'' →
        outcome = .updated rows.length := by
  have sound := h.sound
  have statement : (Plan.delete name filter).IsStatement := trivial
  cases found : db.table? name with
  | none =>
      have missing : db.catalog.table name = .error (.tableNotFound name) :=
        Catalog.table_of_missing found
      refine .inl ⟨.tableNotFound name, ?_, ?_⟩
      · rw [Plan.execute_query rfl, Plan.rows, missing, Fallible.error_bind]
      · rw [Plan.execute_eq statement sound, Plan.effect, missing, Fallible.error_bind]
  | some t =>
      have table := sound.tables name t found
      have query := execute_scan table found filter
      cases known : t.checkFilter filter with
      | error e =>
          rw [known] at query
          refine .inl ⟨e, query, ?_⟩
          rw [Plan.execute_eq statement sound, effect_delete sound found, known]
          rfl
      | ok u =>
          obtain ⟨db', removed, found'⟩ := execute_delete sound found accepted known
          have table' := Table.sound_removed table.toValid known
          have query' := execute_scan table' found' filter
          rw [known] at query
          simp only [Table.checkFilter_withRows, known, Table.columnNames_withRows,
            Table.satisfies_withRows, Table.rows_withRows, Table.filter_removed] at query'
          have rest := t.remainingRows_eq (t.chosen_sorted filter)
          rw [t.remainingRows_chosen filter] at rest
          exact .inr ⟨t, _, db', _, rfl, found', t.mapM_row_passing _, query, removed, rest, rfl,
            t.indexNames_withRows _, (Table.sound_iff.mp table').2, query',
            fun _ _ _ => updated_of_execute sound found⟩

theorem indexed_rows_removed :
    let db := (new MemoryStore.empty).afterAll
      [("CREATE TABLE t (a INT PRIMARY KEY, b FLOAT)", []), ("CREATE INDEX i ON t (b)", []),
        ("INSERT INTO t VALUES (1, 2)", []), ("INSERT INTO t VALUES (2, 3)", []),
        ("INSERT INTO t VALUES (3, 2)", [])]
    let query : Action (Database MemoryStore) Outcome :=
      execute "SELECT * FROM t WHERE b = ?" [.integer 2]
    let removal : Action (Database MemoryStore) Outcome :=
      execute "DELETE FROM t WHERE b = ?" [.integer 2]
    Action.result query db = .ok (.selected ⟨["a", "b"],
      [[.integer 1, .float (.ofInt64 2)], [.integer 3, .float (.ofInt64 2)]]⟩) ∧
    ∃ db', removal db = .ok (.deleted 2) db' ∧
      query db' = .ok (.selected ⟨["a", "b"], []⟩) db' := by
  intro db query removal
  have reachable : db.Reachable :=
    (Reachable.opened (rfl : open? MemoryStore.empty = .ok (new .empty))).afterAll _
  have accepted : refusal? db.store "t" = none := rfl
  have queried : query = (Plan.scan "t" (some ⟨"b", .integer 2⟩)).execute :=
    execute_of_plan (by decide +kernel)
  have removed : removal = (Plan.delete "t" (some ⟨"b", .integer 2⟩)).execute :=
    execute_of_plan (by decide +kernel)
  have answer : Action.result query db = .ok (.selected ⟨["a", "b"],
      [[.integer 1, .float (.ofInt64 2)], [.integer 3, .float (.ofInt64 2)]]⟩) := by
    decide +kernel
  have answered := Action.eq_ok_of_result answer
  refine ⟨answer, ?_⟩
  rcases selections_agree reachable "t" (some ⟨"b", .integer 2⟩) accepted with
    ⟨e, failed, -⟩ | ⟨t, t', db', rows, -, -, -, found, deleted, -, -, -, -, left, -⟩
  · rw [← queried, answered] at failed
    cases failed
  · rw [← queried, answered] at found
    rw [← removed] at deleted
    rw [← queried] at left
    obtain ⟨columns, rfl⟩ := RowSet.mk.inj
      (Outcome.selected.inj (EStateM.Result.ok.inj found).1)
    exact ⟨db', deleted, columns ▸ left⟩

/-- A value that is not null selects one row at most in a primary key or a unique column, and null
    selects none in a primary key. -/
theorem key_selects_one (h : db.Reachable) {name : String} {t : Table}
    (found : db.table? name = some t) {c : Column} (column : c ∈ t.columns) (v : Value) :
    ∃ rows : List Row,
      (Plan.scan name (some ⟨c.name, v⟩)).execute db =
        .ok (.selected ⟨t.columnNames, rows⟩) db ∧
      (∀ assignments outcome db',
        (Plan.update name (some ⟨c.name, v⟩) assignments).execute db = .ok outcome db' →
        outcome = .updated rows.length) ∧
      (∀ outcome db', (Plan.delete name (some ⟨c.name, v⟩)).execute db = .ok outcome db' →
        outcome = .deleted rows.length) ∧
      (refusal? db.store name = none →
        ∃ db', (Plan.delete name (some ⟨c.name, v⟩)).execute db = .ok (.deleted rows.length) db') ∧
      (c.isUnique = true → v ≠ .null → rows.length ≤ 1) ∧
      (c.primaryKey = true → v = .null → rows = []) := by
  have sound := h.sound
  have table := sound.tables name t found
  have known : t.checkFilter (some ⟨c.name, v⟩) = .ok () := by
    apply Table.checkFilter_eq_ok_iff.mpr
    intro condition same
    cases same
    exact List.mem_map_of_mem column
  have query := execute_scan table found (some ⟨c.name, v⟩)
  rw [known] at query
  refine ⟨_, query, fun _ _ _ => updated_of_execute sound found,
    fun _ _ => deleted_of_execute sound found, fun accepted => ?_,
    fun unique present => Table.length_satisfying_le_one table.toValid column unique present,
    fun key null => ?_⟩
  · obtain ⟨db', removed, -⟩ := execute_delete sound found accepted known
    exact ⟨db', removed⟩
  · rw [null]
    exact Table.filter_null_of_primaryKey table.toValid column key

/-- Past `2 ^ 53` not every integer is a float. The second row would be stored under the key of the
    first, and is refused. -/
theorem large_key_found_once :
    let db := (new MemoryStore.empty).afterAll
      [("CREATE TABLE t (a FLOAT PRIMARY KEY)", []), ("CREATE INDEX i ON t (a)", []),
        ("INSERT INTO t VALUES (9007199254740992)", []),
        ("INSERT INTO t VALUES (9007199254740993)", [])]
    let query : Action (Database MemoryStore) Outcome :=
      execute "SELECT * FROM t WHERE a = ?" [.integer 9007199254740992]
    let removal : Action (Database MemoryStore) Outcome :=
      execute "DELETE FROM t WHERE a = ?" [.integer 9007199254740992]
    let rows : List Row := [[.float (.ofInt64 9007199254740992)]]
    query db = .ok (.selected ⟨["a"], rows⟩) db ∧ rows.length ≤ 1 ∧
      ∃ db', removal db = .ok (.deleted rows.length) db' := by
  intro db query removal rows
  have reachable : db.Reachable :=
    (Reachable.opened (rfl : open? MemoryStore.empty = .ok (new .empty))).afterAll _
  have queried : query = (Plan.scan "t" (some ⟨"a", .integer 9007199254740992⟩)).execute :=
    execute_of_plan (by decide +kernel)
  have removed : removal = (Plan.delete "t" (some ⟨"a", .integer 9007199254740992⟩)).execute :=
    execute_of_plan (by decide +kernel)
  have run : (db.table? "t").map (·.columns) = some [⟨"a", .float, true, false, true⟩] ∧
      Action.result query db = .ok (.selected ⟨["a"], rows⟩) := by
    decide +kernel
  obtain ⟨t, found, columns⟩ := Option.map_eq_some_iff.mp run.1
  have column : ⟨"a", .float, true, false, true⟩ ∈ t.columns := by simp [columns]
  have answered := Action.eq_ok_of_result run.2
  obtain ⟨held, selected, -, -, deleted, single, -⟩ :=
    key_selects_one reachable found column (.integer 9007199254740992)
  rw [← queried, answered] at selected
  obtain ⟨same, here⟩ := EStateM.Result.ok.inj selected
  obtain ⟨-, rfl⟩ := RowSet.mk.inj (Outcome.selected.inj same)
  rw [here] at answered
  exact ⟨answered, single rfl nofun, removed ▸ deleted rfl⟩

end Database

end Tabular
