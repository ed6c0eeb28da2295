import Tabular.Proofs.RowSets

/-! # The rows that a condition selects

Queries, changes and removals choose rows by one test: the cell in the column of the condition equals
its value. An index may answer in the place of a comparison with every row, and finds the same. In a
unique column at most one row passes the test, unless it is for null.
-/

namespace Tabular

/-- A list whose members stand in a relation pairwise, although no two members can, has no two. -/
theorem length_le_one_of_pairwise {α : Type} {R : α → α → Prop} {items : List α}
    (h : items.Pairwise R) (never : ∀ a ∈ items, ∀ b ∈ items, ¬R a b) : items.length ≤ 1 := by
  match items with
  | [] | [_] => simp
  | first :: second :: rest =>
      have related := (List.pairwise_cons.mp h).1 second (by simp)
      exact absurd related (never first (by simp) second (by simp))

namespace Table

variable {t : Table} {filter : Option (Condition Value)}

/-- Whether a row satisfies a condition. Without one every row does. -/
def satisfies (t : Table) (filter : Option (Condition Value)) (row : Row) : Bool :=
  filter.all fun condition => (row.value (t.position condition.column)).sqlEq condition.value

/-- The positions of the rows that satisfy a condition, in increasing order. -/
def chosen (t : Table) (filter : Option (Condition Value)) : List Nat :=
  Row.passing (t.satisfies filter) t.rows

/-- Requires the column of a condition to exist. -/
def checkFilter (t : Table) : Option (Condition Value) → Except Error Unit
  | none => .ok ()
  | some condition =>
    if condition.column ∈ t.columnNames then .ok () else .error (.columnNotFound condition.column)

theorem checkFilter_eq_ok_iff :
    t.checkFilter filter = .ok () ↔ ∀ condition ∈ filter, condition.column ∈ t.columnNames := by
  cases filter <;> simp [checkFilter]

@[simp] theorem satisfies_withRows (t : Table) (rows : List Row)
    (filter : Option (Condition Value)) :
    (t.withRows rows).satisfies filter = t.satisfies filter := rfl

@[simp] theorem checkFilter_withRows (t : Table) (rows : List Row)
    (filter : Option (Condition Value)) :
    (t.withRows rows).checkFilter filter = t.checkFilter filter := rfl

/-- Nothing that satisfies the condition is left where that has been removed. -/
theorem filter_removed (t : Table) (filter : Option (Condition Value)) (rows : List Row) :
    (rows.filter fun row => !t.satisfies filter row).filter (t.satisfies filter) = [] := by
  simp [List.filter_filter]

theorem mem_chosen_of_mem {e : Row × Nat} (member : e ∈ t.rows.zipIdx) :
    e.2 ∈ t.chosen filter ↔ t.satisfies filter e.1 = true := by
  have here := List.mem_zipIdx_iff_getElem?.mp member
  rw [chosen, Row.mem_passing, here]
  simp

theorem not_satisfies_of_not_chosen {i : Nat} (below : i < t.rows.length)
    (out : i ∉ t.chosen filter) : t.satisfies filter t.rows[i] = false := by
  apply Bool.eq_false_iff.mpr
  intro holds
  exact out (Row.mem_passing.mpr ⟨_, List.getElem?_eq_getElem below, holds⟩)

theorem length_chosen (t : Table) (filter : Option (Condition Value)) :
    (t.chosen filter).length = (t.rows.filter (t.satisfies filter)).length :=
  Row.length_passing (t.satisfies filter) t.rows

theorem chosen_sorted (t : Table) (filter : Option (Condition Value)) :
    (t.chosen filter).Pairwise (· < ·) :=
  Row.passing_sorted _ t.rows

theorem remainingRows_chosen (t : Table) (filter : Option (Condition Value)) :
    t.remainingRows (t.chosen filter) = t.rows.filter fun row => !t.satisfies filter row := by
  rw [← Row.filter_zipIdx, t.remainingRows_eq (t.chosen_sorted filter)]
  congr 1
  apply List.filter_congr
  intro e member
  simp [mem_chosen_of_mem member]

/-! ## Reading, changing and removing by a condition -/

theorem select_eq_chosen (valid : t.Valid) (filter : Option (Condition Value)) :
    t.select filter = (fun _ => t.chosen filter) <$> t.checkFilter filter := by
  cases filter with
  | none =>
      have all : t.chosen none = List.range t.rows.length := by
        simp [chosen, Row.passing, satisfies, List.zipIdx_map_snd, List.range_eq_range']
      simp [select, checkFilter, all, pure, Except.pure]
  | some condition =>
      rw [select_eq valid, matching, checkFilter]
      split <;> rfl

theorem read_eq_satisfying (sound : t.Sound) (filter : Option (Condition Value)) :
    t.read filter =
      (fun _ => ⟨t.columnNames, t.rows.filter (t.satisfies filter)⟩) <$> t.checkFilter filter := by
  rw [read_eq sound]
  cases filter with
  | none =>
      have all : t.rows.filter (t.satisfies none) = t.rows := List.filter_true t.rows
      simp [checkFilter, rowSet, all]
  | some condition =>
      have columns : t.rowSet.columns = t.columnNames := rfl
      rw [Option.elim_some, RowSet.filter_eq sound.rectangular, columns, checkFilter]
      split <;> rfl

theorem removal_eq (valid : t.Valid) (filter : Option (Condition Value)) :
    t.removal filter = (fun _ => ((t.rows.filter (t.satisfies filter)).length,
      t.rows.filter fun row => !t.satisfies filter row)) <$> t.checkFilter filter := by
  rw [removal, select_eq_chosen valid]
  cases t.checkFilter filter with
  | error e => rfl
  | ok u =>
      simp only [Fallible.map_ok, Fallible.ok_bind, remainingRows_chosen, length_chosen]
      rfl

theorem sound_removed (valid : t.Valid) (known : t.checkFilter filter = .ok ()) :
    (t.withRows (t.rows.filter fun row => !t.satisfies filter row)).Sound := by
  have removed := removal_eq valid filter
  rw [known] at removed
  exact sound_withRows (valid_removal valid removed)

/-! ## Conditions on unique columns -/

theorem exists_place {c : Column} (column : c ∈ t.columns) : ∃ p, (c, p) ∈ t.columns.zipIdx := by
  obtain ⟨p, here⟩ := List.mem_iff_getElem?.mp column
  exact ⟨p, List.mk_mem_zipIdx_iff_getElem?.mpr here⟩

theorem position_of_place (names : t.columnNames.Nodup) {c : Column} {p : Nat}
    (place : (c, p) ∈ t.columns.zipIdx) : t.position c.name = p := by
  obtain ⟨below, rfl⟩ := List.getElem?_eq_some_iff.mp (List.mk_mem_zipIdx_iff_getElem?.mp place)
  have inside : p < t.columnNames.length := by simpa [columnNames] using below
  have named : t.columns[p].name = t.columnNames[p] := by simp [columnNames]
  rw [named, position]
  exact names.idxOf_getElem p _

/-- A value that is not null is held by at most one row in a unique column. -/
theorem length_satisfying_le_one (valid : t.Valid) {c : Column} (column : c ∈ t.columns)
    (unique : c.isUnique = true) {v : Value} (present : v ≠ .null) :
    (t.rows.filter (t.satisfies (some ⟨c.name, v⟩))).length ≤ 1 := by
  obtain ⟨p, place⟩ := exists_place column
  have apart := List.pairwise_map.mp (valid.unique _ place unique)
  refine length_le_one_of_pairwise (apart.sublist List.filter_sublist) ?_
  intro a first b second clash
  have holds : ∀ row ∈ t.rows.filter (t.satisfies (some ⟨c.name, v⟩)),
      (row.value p).sqlEq v = true := by
    intro row member
    simpa [satisfies, position_of_place valid.names place] using List.of_mem_filter member
  have equal : (a.value p).sqlEq (b.value p) = true :=
    Value.sqlEq_trans (holds a first) (Value.sqlEq_comm v _ ▸ holds b second)
  rcases clash with null | unequal
  · exact Value.ne_null_of_sqlEq (holds a first) present null
  · simp_all

/-- Nothing in a primary key is null. -/
theorem filter_null_of_primaryKey (valid : t.Valid) {c : Column} (column : c ∈ t.columns)
    (key : c.primaryKey = true) : t.rows.filter (t.satisfies (some ⟨c.name, .null⟩)) = [] := by
  obtain ⟨p, place⟩ := exists_place column
  apply List.filter_eq_nil_iff.mpr
  intro row member holds
  have stored := valid.stored_value member _ place
  have null : row.value p = .null := by
    simp only [satisfies, Option.all_some, position_of_place valid.names place] at holds
    cases held : row.value p <;> simp_all [Value.sqlEq]
  simp [null, Column.stored, Column.acceptsNull, key] at stored

end Table

end Tabular
