import Tabular.Proofs.Filing
import Tabular.Proofs.Revision

/-! # The upkeep of indexes

A table that obeys the rules can be given other rows with every index made for them. Adding,
changing and removing rows all come down to that step: new rows are worked out, which may fail, and
then nothing fails any more.
-/

namespace Tabular.Table

/-- An index made anew for some rows of a table. -/
def refiled (t : Table) (rows : List Row) (index : Index) : Index :=
  .of index.name index.column (t.position index.column) rows

/-- A table with other rows and the indexes that these rows have. -/
def withRows (t : Table) (rows : List Row) : Table :=
  { t with rows, indexes := t.indexes.mapValues (t.refiled rows) }

/-- A table that obeys the rules for stored tables and whose indexes are those of its rows. -/
structure Sound (t : Table) : Prop extends t.Valid where
  current : t.withRows t.rows = t

variable {t : Table}

@[simp] theorem rows_withRows (t : Table) (rows : List Row) : (t.withRows rows).rows = rows := rfl

@[simp] theorem columnNames_withRows (t : Table) (rows : List Row) :
    (t.withRows rows).columnNames = t.columnNames := rfl

theorem withRows_withRows (t : Table) (rows rows' : List Row) :
    (t.withRows rows).withRows rows' = t.withRows rows' := by
  simp only [withRows, SortedMap.mapValues_mapValues, refiled, Index.of_name, Index.of_column]
  rfl

theorem withRows_current_iff :
    t.withRows t.rows = t ↔ ∀ e ∈ t.indexes.toList, t.refiled t.rows e.2 = e.2 := by
  constructor
  · intro current
    have indexes : t.indexes.mapValues (t.refiled t.rows) = t.indexes :=
      congrArg (·.indexes) current
    exact SortedMap.eq_of_mapValues_fixed indexes
  · intro made
    rw [withRows, SortedMap.mapValues_fixed made]

theorem Valid.wide (valid : t.Valid) {name : String} (known : name ∈ t.columnNames) :
    ∀ row ∈ t.rows, t.position name < row.length := by
  intro row member
  rw [valid.widths row member]
  exact position_lt known

theorem Valid.sound (valid : t.Valid) : (t.withRows t.rows).Sound where
  toValid := by
    refine ⟨valid.columns, valid.names, valid.widths, valid.stored, valid.unique, ?_⟩
    intro e member
    obtain ⟨old, was, rfl⟩ := List.mem_map.mp member
    obtain ⟨covers, known⟩ := valid.filed old was
    exact ⟨(Index.of_column ..).trans covers, known⟩
  current := t.withRows_withRows t.rows t.rows

/-- Every index covers the column that it stands under and is what building it anew from the rows
    gives. -/
def WellIndexed (t : Table) : Prop :=
  ∀ filed index, t.indexes.get? filed = some index →
    ∃ position, t.columnPosition filed = .ok position ∧
      Index.build index.name filed position t.rows = .ok index

/-- The names of the indexes, each under its column. -/
def indexNames (t : Table) : SortedMap String String := t.indexes.mapValues (·.name)

@[simp] theorem indexNames_withRows (t : Table) (rows : List Row) :
    (t.withRows rows).indexNames = t.indexNames := by
  simp only [indexNames, withRows, SortedMap.mapValues_mapValues, refiled, Index.of_name]

/-- A table is sound if it obeys the rules for stored tables and its indexes are up to date. -/
theorem sound_iff : t.Sound ↔ t.check = .ok () ∧ t.WellIndexed := by
  rw [check_eq_ok_iff]
  constructor
  · intro sound
    refine ⟨sound.toValid, fun filed index filing => ?_⟩
    have member := SortedMap.mem_toList_iff.mpr filing
    obtain ⟨covers, known⟩ := sound.filed _ member
    have made := withRows_current_iff.mp sound.current _ member
    rw [refiled, covers] at made
    refine ⟨t.position filed, columnPosition_of_mem known, ?_⟩
    rw [Index.build_eq_ok (sound.toValid.wide known), made]
  · rintro ⟨valid, indexed⟩
    refine ⟨valid, withRows_current_iff.mpr fun e member => ?_⟩
    obtain ⟨covers, known⟩ := valid.filed e member
    obtain ⟨position, found, built⟩ := indexed e.1 e.2 (SortedMap.mem_toList_iff.mp member)
    rw [columnPosition_of_mem known] at found
    cases found
    rw [Index.build_eq_ok (valid.wide known)] at built
    rw [refiled, covers]
    exact Except.ok.inj built

/-! ## Finding rows -/

/-- The positions of the rows that satisfy a condition, if it is on a column of the table. -/
def matching (t : Table) (condition : Condition Value) : Except Error (List Nat) :=
  if condition.column ∈ t.columnNames then
    .ok (Row.positions (·.sqlEq condition.value) (t.position condition.column) t.rows)
  else .error (.columnNotFound condition.column)

theorem select_eq (valid : t.Valid) (condition : Condition Value) :
    t.select (some condition) = t.matching condition := by
  rw [select, matching]
  by_cases known : condition.column ∈ t.columnNames
  · rw [if_pos known, columnPosition_of_mem known]
    exact scan_eq_ok (valid.wide known)
  · rw [if_neg known, columnPosition_of_not_mem known]
    rfl

/-- An index finds what looking at every row finds, in the same order. -/
theorem find_eq (sound : t.Sound) (condition : Condition Value) :
    t.find condition = t.matching condition := by
  cases filed : t.indexes.get? condition.column with
  | none =>
      rw [← select_eq sound.toValid, find, filed]
      rfl
  | some index =>
      have member := SortedMap.mem_toList_iff.mpr filed
      obtain ⟨covers, known⟩ := sound.filed _ member
      have made := withRows_current_iff.mp sound.current _ member
      rw [refiled, covers] at made
      have looked := Index.lookup_of index.name condition.column (t.position condition.column)
        t.rows condition.value
      rw [made] at looked
      rw [find, filed, columnPosition_of_mem known, matching, if_pos known]
      exact congrArg Except.ok looked

/-! ## Making indexes anew -/

theorem addIndex_apply {name column : String} (widths : ∀ row ∈ t.rows,
    row.length = t.columns.length) (known : column ∈ t.columnNames) :
    addIndex name column t = .ok ⟨⟩ { t with
      indexes := t.indexes.insert column (.of name column (t.position column) t.rows) } := by
  have wide : ∀ row ∈ t.rows, t.position column < row.length := by
    intro row member
    rw [widths row member]
    exact position_lt known
  simp only [addIndex, Action.bind_apply, Action.get_apply, Action.lift_apply,
    columnPosition_of_mem known, Index.build_eq_ok wide]
  rfl

/-- Making all indexes anew succeeds on every table that obeys the rules. -/
theorem reindex_apply (valid : t.Valid) : reindex t = .ok ⟨⟩ (t.withRows t.rows) := by
  have step : ∀ e ∈ t.indexes.toList, ∀ indexes : SortedMap String Index,
      addIndex e.2.name e.2.column { t with indexes } =
        .ok ⟨⟩ { t with indexes := indexes.insert e.1 (t.refiled t.rows e.2) } := by
    intro e member indexes
    obtain ⟨covers, known⟩ := valid.filed e member
    rw [← covers] at known
    rw [← covers]
    exact addIndex_apply valid.widths known
  have loop := Action.forM_apply (fun indexes => { t with indexes }) step t.indexes
  rw [SortedMap.foldl_insert_toList] at loop
  simp only [reindex, Action.bind_apply, Action.get_apply, SortedMap.values, List.forM_eq_forM,
    List.forM_map]
  exact loop

theorem reindexed_eq_ok (valid : t.Valid) : t.reindexed = .ok (t.withRows t.rows) := by
  rw [reindexed, reindex_apply valid]

/-- Every change of rows ends in writing them and making all indexes anew. -/
theorem set_reindex_apply {rows : List Row} (valid : Valid { t with rows }) (count : Nat) :
    (do set { t with rows }; reindex; return count : Action Table Nat) t =
      .ok count (t.withRows rows) := by
  simp only [Action.bind_apply, Action.set_apply, reindex_apply valid]
  rfl

/-! ## Adding rows -/

theorem indexRow_apply {stored : Row} {index : Index} (wide : stored.length = t.columns.length)
    (known : index.column ∈ t.columnNames) (position : Nat) (filed : String)
    (indexes : SortedMap String Index) :
    indexRow stored position filed index { t with indexes } = .ok ⟨⟩ { t with
      indexes := indexes.insert filed
        (index.add (stored.value (t.position index.column)) position) } := by
  have column : columnPosition { t with indexes } index.column =
      .ok (t.position index.column) := columnPosition_of_mem (t := { t with indexes }) known
  have below : t.position index.column < stored.length := wide ▸ position_lt known
  have cell := Row.cell_eq_ok_value below
  simp only [indexRow, Action.bind_apply, Action.get_apply, Action.lift_apply, column, cell]
  rfl

/-- A new row is added with all indexes following, or nothing happens. -/
theorem insert_apply (sound : t.Sound) (row : Row) :
    insert row t = match t.insertion row with
      | .ok rows => .ok t.rows.length (t.withRows rows)
      | .error e => .error e t := by
  simp only [insert, insertion, Action.bind_apply, Action.get_apply, Action.lift_apply]
  cases accepted : t.storedRow row with
  | error e => rfl
  | ok stored =>
      cases fresh : t.checkNew stored with
      | error e => simp only [Fallible.ok_bind, fresh, Fallible.error_bind]
      | ok u =>
          have made := withRows_current_iff.mp sound.current
          have step : ∀ e ∈ t.indexes.toList, ∀ indexes : SortedMap String Index,
              indexRow stored t.rows.length e.1 e.2 { t with indexes } = .ok ⟨⟩ { t with
                indexes := indexes.insert e.1 (t.refiled (t.rows ++ [stored]) e.2) } := by
            intro e member indexes
            obtain ⟨covers, known⟩ := sound.filed e member
            rw [indexRow_apply ((storedRow_eq_ok accepted).1) (covers ▸ known), refiled,
              Index.of_append_one]
            have current := made e member
            rw [refiled] at current
            rw [current]
          have loop := Action.forM_apply (fun indexes => { t with indexes }) step t.indexes
          rw [SortedMap.foldl_insert_toList] at loop
          simp only [loop, fresh, Fallible.ok_bind, Action.modify_apply]
          rfl

/-- The row of given values for some columns, or for all of them in order if none are named. -/
def given (t : Table) (columns : List String) (values : List Value) : Except Error Row :=
  if columns = [] then .ok values else t.assembleRow columns values

theorem insertValues_apply (sound : t.Sound) (columns : List String) (values : List Value) :
    insertValues columns values t = match t.given columns values >>= t.insertion with
      | .ok rows => .ok t.rows.length (t.withRows rows)
      | .error e => .error e t := by
  rw [insertValues, given]
  by_cases all : columns = []
  · simp only [all, if_true, Action.bind_apply, Action.pure_apply, Fallible.ok_bind]
    exact insert_apply sound values
  · simp only [all, if_false, Action.bind_apply, Action.get_apply, Action.lift_apply]
    cases t.assembleRow columns values with
    | error e => rfl
    | ok row => exact insert_apply sound row

/-! ## Changing and removing rows -/

/-- Rows are changed with all indexes following, or nothing happens. -/
theorem update_apply (sound : t.Sound) (filter : Option (Condition Value))
    (assignments : SortedMap String Value) :
    update filter assignments t = match t.revision filter assignments with
      | .ok (count, rows) => .ok count (t.withRows rows)
      | .error e => .error e t := by
  simp only [update, Action.bind_apply, Action.get_apply, Action.lift_apply,
    Action.mapM_lift_apply]
  cases chosen : t.select filter with
  | error e => simp only [revision, chosen, Fallible.error_bind]
  | ok targets =>
      cases written : assignments.toList.mapM fun e => t.writtenCell targets e.1 e.2 with
      | error e => simp only [revision, chosen, written, Fallible.ok_bind, Fallible.error_bind]
      | ok cells =>
          have result : t.revision filter assignments =
              .ok (targets.length, t.rows.zipIdx.map (revised targets cells)) := by
            simp only [revision, chosen, written, Fallible.ok_bind]
            rfl
          have valid := valid_revision sound.toValid result
          have wide : ∀ cell ∈ cells, ∀ row ∈ t.rows, cell.1 < row.length := by
            intro cell member
            obtain ⟨e, -, same⟩ := Fallible.exists_of_mapM_eq_ok written cell member
            obtain ⟨c, writable⟩ := writable_of_writtenCell sound.toValid same
            exact writable.wide sound.toValid
          simp only [result, written]
          by_cases none : targets = []
          · subst none
            rw [if_neg (not_not.mpr rfl), revised_nil, sound.current, Action.pure_apply]
          · rw [if_pos none, Action.bind_apply, Action.lift_apply, writtenRows_eq_ok wide]
            exact set_reindex_apply valid targets.length

/-- Rows are removed with all indexes following, or nothing happens. -/
theorem delete_apply (sound : t.Sound) (filter : Option (Condition Value)) :
    delete filter t = match t.removal filter with
      | .ok (count, rows) => .ok count (t.withRows rows)
      | .error e => .error e t := by
  simp only [delete, Action.bind_apply, Action.get_apply, Action.lift_apply]
  cases chosen : t.select filter with
  | error e => simp only [removal, chosen, Fallible.error_bind]
  | ok targets =>
      have result : t.removal filter = .ok (targets.length, t.remainingRows targets) := by
        simp only [removal, chosen, Fallible.ok_bind]
        rfl
      simp only [result]
      by_cases none : targets = []
      · subst none
        rw [if_neg (not_not.mpr rfl), remainingRows_nil, sound.current, Action.pure_apply]
      · rw [if_pos none]
        exact set_reindex_apply (valid_removal sound.toValid result) targets.length

/-! ## Adding indexes -/

/-- The table with an index of a column, which has to exist. -/
def indexing (t : Table) (name column : String) : Except Error Table := do
  let position ← t.columnPosition column
  return { t with indexes := t.indexes.insert column (.of name column position t.rows) }

theorem columnPosition_eq_ok {name : String} {position : Nat}
    (h : t.columnPosition name = .ok position) :
    name ∈ t.columnNames ∧ position = t.position name := by
  by_cases known : name ∈ t.columnNames
  · rw [columnPosition_of_mem known] at h
    cases h
    exact ⟨known, rfl⟩
  · rw [columnPosition_of_not_mem known] at h
    cases h

theorem addIndex_eq_indexing (sound : t.Sound) (name column : String) :
    addIndex name column t = match t.indexing name column with
      | .ok t' => .ok ⟨⟩ t'
      | .error e => .error e t := by
  by_cases known : column ∈ t.columnNames
  · rw [addIndex_apply sound.widths known, indexing, columnPosition_of_mem known]
    rfl
  · simp only [addIndex, indexing, Action.bind_apply, Action.get_apply, Action.lift_apply,
      columnPosition_of_not_mem known, Fallible.error_bind]

theorem indexing_name {name column : String} {t' : Table}
    (h : t.indexing name column = .ok t') : t'.name = t.name := by
  obtain ⟨position, -, h⟩ := Fallible.bind_eq_ok.mp h
  cases h
  rfl

theorem indexing_columns {name column : String} {t' : Table}
    (h : t.indexing name column = .ok t') : t'.columns = t.columns := by
  obtain ⟨position, -, h⟩ := Fallible.bind_eq_ok.mp h
  cases h
  rfl

theorem sound_indexing (sound : t.Sound) {name column : String} {t' : Table}
    (h : t.indexing name column = .ok t') : t'.Sound := by
  obtain ⟨position, found, h⟩ := Fallible.bind_eq_ok.mp h
  obtain ⟨known, rfl⟩ := columnPosition_eq_ok found
  cases h
  refine ⟨⟨sound.columns, sound.names, sound.widths, sound.stored, sound.unique, ?_⟩,
    withRows_current_iff.mpr ?_⟩
  · intro e member
    rcases SortedMap.mem_insertEntry member with rfl | old
    · exact ⟨Index.of_column .., known⟩
    · exact sound.filed e old
  · intro e member
    rcases SortedMap.mem_insertEntry member with rfl | old
    · simp only [refiled, Index.of_name, Index.of_column]
      rfl
    · exact withRows_current_iff.mp sound.current e old

/-- A table whose rows are replaced by rows that obey the rules is sound again. -/
theorem sound_withRows {rows : List Row} (valid : Valid { t with rows }) : (t.withRows rows).Sound :=
  valid.sound

theorem sound_new {t : Table} (schema : t.checkSchema = .ok ()) (rows : t.rows = [])
    (indexes : t.indexes = ∅) : t.Sound := by
  obtain ⟨columns, names⟩ := checkSchema_eq_ok_iff.mp schema
  refine ⟨⟨columns, names, ?_, ?_, ?_, ?_⟩, withRows_current_iff.mpr ?_⟩
  · simp [rows]
  · simp [rows]
  · simp [cells, rows]
  · simp [indexes]
  · simp [indexes]

end Tabular.Table
