import Tabular.Proofs.Reachability
import Tabular.Proofs.RowSets

/-! # What queries answer

A query starts from the rows of a table or from a join, keeps the rows that satisfy its condition,
chooses columns and takes the first rows. Whether an index is used, and where in the plan a step
stands, cannot be seen.
-/

namespace Tabular

/-- A query with the value of its condition. No columns stand for all of them. -/
structure Query where
  columns : List String
  table : String
  join : Option JoinSpec
  condition : Option (Condition Value)
  count : Option Nat

namespace Query

variable {q : Query} {c : Catalog} {s : RowSet}

/-- The rows that a query starts from. -/
def base (q : Query) (c : Catalog) : Except Error RowSet := do
  let t ← c.table q.table
  match q.join with
  | none => return t.rowSet
  | some spec =>
    let u ← c.table spec.table
    t.rowSet.join u.rowSet (spec.left, spec.right) (spec.kind = .left)

/-- Why a query has no rows to start from. -/
inductive NoBase (q : Query) (c : Catalog) : Error → Prop
  | table (absent : c.get? q.table = none) : NoBase q c (.tableNotFound q.table)
  | joined {t : Table} {spec : JoinSpec} (known : c.get? q.table = some t)
    (join : q.join = some spec) (absent : c.get? spec.table = none) :
    NoBase q c (.tableNotFound spec.table)
  /-- Neither order of the two columns fits the two tables. -/
  | columns {t u : Table} {spec : JoinSpec} (known : c.get? q.table = some t)
    (join : q.join = some spec) (known' : c.get? spec.table = some u)
    (forward : ¬(spec.left ∈ t.columnNames ∧ spec.right ∈ u.columnNames))
    (backward : ¬(spec.right ∈ t.columnNames ∧ spec.left ∈ u.columnNames)) :
    NoBase q c (.columnNotFound
      (if spec.left ∉ t.columnNames ∧ spec.left ∉ u.columnNames then spec.left else spec.right))

/-- The first column that a query asks for in vain: the one of its condition comes before those that
    it chooses. -/
def unknown? (q : Query) (s : RowSet) : Option String :=
  (q.condition.toList.map (·.column) ++ q.columns).find? (· ∉ s.columns)

/-- Whether a row satisfies the condition, if there is one. -/
def accepts (q : Query) (s : RowSet) (row : Row) : Bool :=
  q.condition.all fun condition => (s.value condition.column row).sqlEq condition.value

/-- The rows that satisfy the condition. -/
def keep (q : Query) (s : RowSet) : RowSet := { s with rows := s.rows.filter (q.accepts s) }

/-- The first rows, or all of them if no number is given. -/
def first (q : Query) (rows : List Row) : List Row := q.count.elim rows fun count => rows.take count

/-- The chosen columns of the first rows. -/
def choose (q : Query) (s : RowSet) : RowSet :=
  if q.columns = [] then ⟨s.columns, q.first s.rows⟩
  else ⟨q.columns, q.first (s.rows.map fun row => q.columns.map (s.value · row))⟩

/-- The answer to a query. -/
def answer (q : Query) (c : Catalog) : Except Error RowSet := do
  let s ← q.base c
  match q.unknown? s with
  | some name => throw (.columnNotFound name)
  | none => return q.choose (q.keep s)

/-! ## The rows to start from -/

theorem base_of_join {t u : Table} {spec : JoinSpec} (known : c.get? q.table = some t)
    (join : q.join = some spec) (known' : c.get? spec.table = some u) :
    q.base c = t.rowSet.join u.rowSet (spec.left, spec.right) (spec.kind = .left) := by
  rw [base, Catalog.table, known, join]
  simp only [Fallible.ok_bind, Catalog.table, known']

theorem rectangular_base (sound : c.Sound) (h : q.base c = .ok s) : s.Rectangular := by
  obtain ⟨t, known, h⟩ := Fallible.bind_eq_ok.mp h
  have table := sound.table known
  cases join : q.join with
  | none =>
      rw [join] at h
      cases h
      exact table.rectangular
  | some spec =>
      rw [join] at h
      obtain ⟨u, known', h⟩ := Fallible.bind_eq_ok.mp h
      have other := sound.table known'
      rw [RowSet.join_eq table.rectangular other.rectangular] at h
      obtain ⟨positions, -, rfl⟩ := Fallible.map_eq_ok.mp h
      exact RowSet.rectangular_joined _ _ _ _

theorem base_eq_error_iff (sound : c.Sound) {e : Error} : q.base c = .error e ↔ q.NoBase c e := by
  constructor
  · intro h
    cases known : c.get? q.table with
    | none =>
        rw [base, Catalog.table, known] at h
        cases h
        exact .table known
    | some t =>
        cases join : q.join with
        | none =>
            rw [base, Catalog.table, known, join] at h
            cases h
        | some spec =>
            cases known' : c.get? spec.table with
            | none =>
                rw [base, Catalog.table, known, join] at h
                simp only [Fallible.ok_bind, Catalog.table, known'] at h
                cases h
                exact .joined known join known'
            | some u =>
                have even := (sound.tables _ t known).rectangular
                have even' := (sound.tables _ u known').rectangular
                rw [base_of_join known join known', RowSet.join_eq_error_iff even even'] at h
                obtain ⟨forward, backward, rfl⟩ := h
                exact .columns known join known' forward backward
  · intro h
    cases h with
    | table absent =>
        rw [base, Catalog.table, absent]
        rfl
    | joined known join absent =>
        rw [base, Catalog.table, known, join]
        simp only [Fallible.ok_bind, Catalog.table, absent]
        rfl
    | columns known join known' forward backward =>
        have even := (sound.tables _ _ known).rectangular
        have even' := (sound.tables _ _ known').rectangular
        rw [base_of_join known join known', RowSet.join_eq_error_iff even even']
        exact ⟨forward, backward, rfl⟩

/-! ## The plan of a query -/

/-- The plan that a query is given. -/
def plan (q : Query) : Plan := (Plan.source q.table q.condition q.join).query q.columns q.count

theorem isQuery_plan (q : Query) : q.plan.isQuery = true :=
  Plan.isQuery_query (Plan.isQuery_source ..) ..

/-- The condition goes into the scan or stands above the join. Either way the rows to start from are
    filtered. -/
theorem rows_source (sound : c.Sound) (q : Query) :
    (Plan.source q.table q.condition q.join).rows c =
      q.base c >>= fun s => q.condition.elim (pure s) s.filter := by
  rw [base]
  cases join : q.join with
  | none =>
      rw [Plan.source, Plan.rows]
      cases known : c.table q.table with
      | error e => rfl
      | ok t => exact Table.read_eq (sound.table known) q.condition
  | some spec =>
      have joined : (Plan.join (.scan q.table none) (.scan spec.table none) (spec.left, spec.right)
          (spec.kind = .left)).rows c = (do
            let t ← c.table q.table
            let u ← c.table spec.table
            t.rowSet.join u.rowSet (spec.left, spec.right) (spec.kind = .left)) := by
        simp only [Plan.rows, Table.read]
        cases c.table q.table with
        | error e => rfl
        | ok t => cases c.table spec.table <;> rfl
      rw [← joined, Plan.source]
      cases q.condition with
      | none => exact (bind_pure _).symm
      | some condition => rfl

theorem rows_query (source : Plan) (columns : List String) (count : Option Nat) :
    (source.query columns count).rows c = (fun s => count.elim s s.limit) <$> (source.rows c >>=
      fun found => if columns = [] then pure found else found.project columns) := by
  have projected : (if columns = [] then source else source.project columns).rows c =
      source.rows c >>= fun found => if columns = [] then pure found else found.project columns := by
    by_cases all : columns = []
    · simp only [all, if_true, bind_pure]
    · simp only [all, if_false, Plan.rows]
  rw [Plan.query, ← projected]
  cases count with
  | none => exact (id_map _).symm
  | some n => exact (map_eq_pure_bind _ _).symm

/-- A choice of columns fails only for want of a column. -/
theorem project_choose (even : s.Rectangular) :
    (fun s => q.count.elim s s.limit) <$>
      (if q.columns = [] then pure s else s.project q.columns) =
    match q.columns.find? (· ∉ s.columns) with
    | some name => .error (.columnNotFound name)
    | none => .ok (q.choose s) := by
  rw [choose]
  by_cases all : q.columns = []
  · rw [if_pos all, if_pos all, all]
    unfold first
    cases q.count <;> rfl
  · rw [if_neg all, if_neg all, RowSet.project_eq even]
    cases q.columns.find? (· ∉ s.columns) with
    | some name => rfl
    | none =>
        unfold first
        cases q.count <;> rfl

/-- So do all steps together, the condition first. -/
theorem filter_choose (even : s.Rectangular) :
    (fun s => q.count.elim s s.limit) <$> (q.condition.elim (pure s) s.filter >>=
      fun found => if q.columns = [] then pure found else found.project q.columns) =
    match q.unknown? s with
    | some name => .error (.columnNotFound name)
    | none => .ok (q.choose (q.keep s)) := by
  rw [unknown?, keep]
  unfold accepts
  cases q.condition with
  | none =>
      simp only [Option.all_none, List.filter_true]
      exact project_choose even
  | some condition =>
      rw [Option.elim_some, RowSet.filter_eq even]
      by_cases known : condition.column ∈ s.columns
      · have kept := project_choose (q := q) (even.satisfying condition)
        rw [if_pos known, Option.toList_some, List.map_singleton, List.singleton_append,
          List.find?_cons_of_neg (by simpa using known)]
        exact kept
      · rw [if_neg known, Option.toList_some, List.map_singleton, List.singleton_append,
          List.find?_cons_of_pos (by simpa using known)]
        rfl

theorem rows_plan (sound : c.Sound) : q.plan.rows c = q.answer c := by
  rw [plan, rows_query, rows_source sound, answer]
  cases started : q.base c with
  | error e => rfl
  | ok s => exact filter_choose (rectangular_base sound started)

/-! ## Queries as texts -/

section

variable {text : String} {params : List Value} {columns : List String} {table : String}
variable {join : Option JoinSpec} {filter : Option (Condition Operand)} {count : Option Nat}
variable {condition : Option (Condition Value)}

theorem parameterCount_le (bound : filter.mapM (·.bind params) = .ok condition) :
    (Statement.select columns table join filter count).parameterCount ≤ params.length := by
  cases filter with
  | none => exact Nat.zero_le _
  | some f =>
      obtain ⟨column, operand⟩ := f
      cases operand with
      | literal v => exact Nat.zero_le _
      | parameter number =>
          have given : number < params.length := by
            by_contra missing
            have absent := List.getElem?_eq_none (Nat.le_of_not_lt missing)
            simp only [Option.mapM_some, Condition.bind, Operand.bind, absent] at bound
            cases bound
          exact Nat.lt_of_le_of_lt (Nat.zero_le _) given

theorem ofText_eq (parsed : Statement.parse text = .ok (.select columns table join filter count))
    (bound : filter.mapM (·.bind params) = .ok condition) :
    Plan.ofText text params = .ok (plan ⟨columns, table, join, condition, count⟩) := by
  have enough : (Statement.select columns table join filter count).parameterCount ≤ params.length :=
    parameterCount_le bound
  rw [Plan.ofText, parsed]
  simp only [Except.mapError, Fallible.ok_bind, Statement.plan, if_neg (Nat.not_lt.mpr enough),
    Statement.bind]
  rw [bound]
  rfl

end

theorem answer_eq_error_iff (sound : c.Sound) {e : Error} :
    q.answer c = .error e ↔ q.NoBase c e ∨
      ∃ s name, q.base c = .ok s ∧ q.unknown? s = some name ∧ e = .columnNotFound name := by
  rw [answer, ← base_eq_error_iff sound]
  cases q.base c with
  | error e' => simp
  | ok s =>
      cases missing : q.unknown? s with
      | none => simp [missing, pure, Except.pure]
      | some name => simp [missing, throw, throwThe, MonadExceptOf.throw, eq_comm]

end Query

namespace Database

variable {σ : Type} [Store σ] [LawfulStore σ] {db : Database σ}

/-- A query answers what its table or join, condition, columns and number say, and leaves the
    database as it is. It fails only if a table or a column does not exist. -/
theorem query_answered (h : db.Reachable) {text : String} {params : List Value}
    {columns : List String} {table : String} {join : Option JoinSpec}
    {filter : Option (Condition Operand)} {count : Option Nat} {condition : Option (Condition Value)}
    (parsed : Statement.parse text = .ok (.select columns table join filter count))
    (bound : filter.mapM (·.bind params) = .ok condition) :
    let q : Query := ⟨columns, table, join, condition, count⟩
    (execute text params db = match q.answer db.catalog with
      | .ok rows => .ok (.selected rows) db
      | .error e => .error e db) ∧
    ∀ e, q.answer db.catalog = .error e ↔ q.NoBase db.catalog e ∨
      ∃ s name, q.base db.catalog = .ok s ∧ q.unknown? s = some name ∧ e = .columnNotFound name := by
  intro q
  refine ⟨?_, fun e => Query.answer_eq_error_iff h.sound⟩
  have planned : execute text params db = q.plan.execute db := by
    simp only [execute, Action.bind_apply, Action.lift_apply, Query.ofText_eq parsed bound]
    rfl
  have answered := Plan.execute_query q.isQuery_plan db
  rw [Query.rows_plan h.sound] at answered
  exact planned.trans answered

theorem self_join_answered :
    let db := (new MemoryStore.empty).afterAll [("CREATE TABLE t (a INT, b FLOAT)", []),
      ("INSERT INTO t VALUES (1, 2)", []), ("INSERT INTO t VALUES (2, 3)", [])]
    Action.result (execute "SELECT b FROM t LEFT JOIN t ON b = a WHERE a = ? LIMIT 1" [.integer 2])
      db = .ok (.selected ⟨["b"], [[.float (.ofInt64 3)]]⟩) := by
  intro db
  have reachable : db.Reachable :=
    (Reachable.opened (rfl : open? MemoryStore.empty = .ok (new .empty))).afterAll _
  have parsed : Statement.parse "SELECT b FROM t LEFT JOIN t ON b = a WHERE a = ? LIMIT 1" =
      .ok (.select ["b"] "t" (some ⟨"t", .left, "b", "a"⟩) (some ⟨"a", .parameter 0⟩) (some 1)) := by
    decide +kernel
  have bound : (some ⟨"a", .parameter 0⟩ : Option (Condition Operand)).mapM (·.bind [.integer 2]) =
      .ok (some ⟨"a", .integer 2⟩) := rfl
  have answered := (query_answered reachable parsed bound).1
  have rows : Query.answer ⟨["b"], "t", some ⟨"t", .left, "b", "a"⟩, some ⟨"a", .integer 2⟩,
      some 1⟩ db.catalog = .ok ⟨["b"], [[.float (.ofInt64 3)]]⟩ := by decide +kernel
  rw [rows] at answered
  rw [Action.result, answered]

end Database

end Tabular
