import Mathlib.Data.List.Zip
import Tabular.Proofs.Upkeep
import Tabular.RowSet.Join

/-! # Row sets as plain lists

In a row set whose rows are as wide as its columns no cell is missing. A condition, a choice of
columns or a join then fails only for want of a column, and otherwise filters, maps or pairs the
rows and gives such a row set again.
-/

namespace Tabular

namespace RowSet

variable {s left right : RowSet}

/-- Every row is as wide as the columns. -/
def Rectangular (s : RowSet) : Prop := ∀ row ∈ s.rows, row.length = s.columns.length

/-- The cell of a row in the first column of a name. -/
def value (s : RowSet) (name : String) (row : Row) : Value := row.value (s.columns.idxOf name)

theorem idxOf?_of_mem {names : List String} {name : String} (known : name ∈ names) :
    names.idxOf? name = some (names.idxOf name) := by
  have below := List.idxOf_lt_length_of_mem known
  rw [List.idxOf_eq_getD_idxOf?] at below ⊢
  cases found : names.idxOf? name with
  | some position => rfl
  | none =>
      rw [found, Option.getD_none] at below
      exact absurd below (Nat.lt_irrefl _)

theorem columnPosition_of_mem {name : String} (known : name ∈ s.columns) :
    s.columnPosition name = .ok (s.columns.idxOf name) := by
  rw [columnPosition, idxOf?_of_mem known]

theorem columnPosition_of_not_mem {name : String} (missing : name ∉ s.columns) :
    s.columnPosition name = .error (.columnNotFound name) := by
  rw [columnPosition, List.idxOf?_eq_none_iff.mpr missing]

theorem Rectangular.cell_eq_ok (even : s.Rectangular) {row : Row} (member : row ∈ s.rows)
    {name : String} (known : name ∈ s.columns) :
    Row.cell row (s.columns.idxOf name) = .ok (s.value name row) := by
  refine Row.cell_eq_ok_value ?_
  rw [even row member]
  exact List.idxOf_lt_length_of_mem known

/-! ## Conditions -/

/-- The rows whose cell in the column of a condition equals its value. -/
def satisfying (s : RowSet) (condition : Condition Value) : RowSet :=
  { s with rows := s.rows.filter fun row => (s.value condition.column row).sqlEq condition.value }

theorem filter_eq (even : s.Rectangular) (condition : Condition Value) :
    s.filter condition = if condition.column ∈ s.columns then .ok (s.satisfying condition)
      else .error (.columnNotFound condition.column) := by
  rw [filter]
  by_cases known : condition.column ∈ s.columns
  · have kept : (s.rows.filterM fun row => do
        return (← Row.cell row (s.columns.idxOf condition.column)).sqlEq condition.value) =
        .ok (s.satisfying condition).rows := by
      refine Fallible.filterM_eq_ok_filter fun row member => ?_
      rw [even.cell_eq_ok member known]
      rfl
    rw [if_pos known, columnPosition_of_mem known, Fallible.ok_bind, kept]
    rfl
  · rw [if_neg known, columnPosition_of_not_mem known]
    rfl

theorem Rectangular.satisfying (even : s.Rectangular) (condition : Condition Value) :
    (s.satisfying condition).Rectangular := fun row member =>
  even row (List.mem_of_mem_filter member)

/-! ## Choices of columns -/

/-- The rows with some columns only, in the given order. -/
def choosing (s : RowSet) (columns : List String) : RowSet :=
  { columns, rows := s.rows.map fun row => columns.map (s.value · row) }

theorem mapM_columnPosition (s : RowSet) (columns : List String) :
    columns.mapM s.columnPosition = match columns.find? (· ∉ s.columns) with
      | some name => .error (.columnNotFound name)
      | none => .ok (columns.map s.columns.idxOf) := by
  induction columns with
  | nil => rfl
  | cons name rest ih =>
      by_cases known : name ∈ s.columns
      · rw [List.mapM_cons, columnPosition_of_mem known, Fallible.ok_bind, ih,
          List.find?_cons_of_neg (by simpa using known)]
        cases rest.find? (· ∉ s.columns) <;> rfl
      · rw [List.mapM_cons, columnPosition_of_not_mem known,
          List.find?_cons_of_pos (by simpa using known)]
        rfl

theorem project_eq (even : s.Rectangular) (columns : List String) :
    s.project columns = match columns.find? (· ∉ s.columns) with
      | some name => .error (.columnNotFound name)
      | none => .ok (s.choosing columns) := by
  rw [project, mapM_columnPosition]
  cases missing : columns.find? (· ∉ s.columns) with
  | some name => rfl
  | none =>
      have known : ∀ name ∈ columns, name ∈ s.columns := by simpa using missing
      have cells : (s.rows.mapM fun row => (columns.map s.columns.idxOf).mapM (Row.cell row)) =
          .ok (s.choosing columns).rows := by
        refine Fallible.mapM_eq_ok_map fun row member => ?_
        rw [Fallible.mapM_map_congr fun name chosen => even.cell_eq_ok member (known name chosen)]
        exact Fallible.mapM_eq_ok_map fun name chosen => rfl
      simp only [Fallible.ok_bind, cells]
      rfl

theorem rectangular_choosing (s : RowSet) (columns : List String) :
    (s.choosing columns).Rectangular := by
  intro row member
  obtain ⟨old, -, rfl⟩ := List.mem_map.mp member
  exact List.length_map ..

theorem Rectangular.limit (even : s.Rectangular) (count : Nat) : (s.limit count).Rectangular :=
  fun row member => even row (List.mem_of_mem_take member)

/-! ## Joins -/

theorem joinPositions_eq (left right : RowSet) (a b : String) :
    joinPositions left right (a, b) =
      if a ∈ left.columns ∧ b ∈ right.columns then
        .ok (left.columns.idxOf a, right.columns.idxOf b)
      else if b ∈ left.columns ∧ a ∈ right.columns then
        .ok (left.columns.idxOf b, right.columns.idxOf a)
      else .error (.columnNotFound (if a ∉ left.columns ∧ a ∉ right.columns then a else b)) := by
  have look (names : List String) (name : String) : names.idxOf? name =
      if name ∈ names then some (names.idxOf name) else none := by
    split
    · exact idxOf?_of_mem ‹_›
    · exact List.idxOf?_eq_none_iff.mpr ‹_›
  simp only [joinPositions, look]
  by_cases forward : a ∈ left.columns ∧ b ∈ right.columns
  · simp only [forward, and_self, if_true]
  · rw [if_neg forward]
    by_cases backward : b ∈ left.columns ∧ a ∈ right.columns
    · grind
    · grind

theorem fit_length (width : Nat) (row : Row) : (fit width row).length = width := by
  rw [fit, List.length_take, List.length_rightpad]
  omega

/-- The columns of a join are at least those of the first set, and every column of the second set
    has its place among them. -/
theorem mergeColumns_lt (columns others : List String) :
    columns.length ≤ (mergeColumns columns others).1.length ∧
      ∀ position ∈ (mergeColumns columns others).2,
        position < (mergeColumns columns others).1.length := by
  induction others generalizing columns with
  | nil => exact ⟨Nat.le_refl _, nofun⟩
  | cons name rest ih =>
      rw [mergeColumns]
      cases found : columns.idxOf? name with
      | some position =>
          obtain ⟨wider, inside⟩ := ih columns
          have below : position < columns.length :=
            (List.findIdx?_eq_some_iff_getElem.mp found).1
          exact ⟨wider, List.forall_mem_cons.mpr ⟨Nat.lt_of_lt_of_le below wider, inside⟩⟩
      | none =>
          obtain ⟨wider, inside⟩ := ih (columns ++ [name])
          rw [List.length_append, List.length_singleton] at wider
          exact ⟨Nat.le_of_succ_le wider, List.forall_mem_cons.mpr ⟨wider, inside⟩⟩

/-- The rows that one row gives: itself merged with each row equal to it in a column, or with
    `outer` itself alone if there is none. -/
def joinedRow (right : RowSet) (on : Nat × Nat) (width : Nat) (positions : List Nat) (outer : Bool)
    (row : Row) : List Row :=
  let partners := right.rows.filter fun other => (row.value on.1).sqlEq (other.value on.2)
  if outer ∧ partners = [] then [fit width row]
  else partners.map fun other => Table.overwritten (fit width row) (positions.zip other)

/-- The pairs of rows of two sets that are equal in two columns. -/
def joined (left right : RowSet) (outer : Bool) (on : Nat × Nat) : RowSet :=
  let merged := mergeColumns left.columns right.columns
  { columns := merged.1
    rows := left.rows.flatMap (joinedRow right on merged.1.length merged.2 outer) }

theorem mergeRow_eq_ok {positions : List Nat} {row other : Row}
    (wide : ∀ position ∈ positions, position < row.length) :
    mergeRow positions row other = .ok (Table.overwritten row (positions.zip other)) := by
  have swapped : mergeRow positions row other = Table.overwrite row (positions.zip other) := by
    rw [mergeRow, ← List.zip_swap, List.foldlM_map]
    rfl
  rw [swapped]
  exact Table.overwrite_eq_ok fun cell member => wide cell.1 (List.of_mem_zip member).1

theorem joinRow_eq_ok {on : Nat × Nat} {width : Nat} {positions : List Nat} {row : Row}
    (outer : Bool) (here : on.1 < row.length) (there : ∀ other ∈ right.rows, on.2 < other.length)
    (inside : ∀ position ∈ positions, position < width) :
    joinRow right on width positions outer row =
      .ok (joinedRow right on width positions outer row) := by
  have partners : (right.rows.filterM fun other => do
      return (← Row.cell row on.1).sqlEq (← Row.cell other on.2)) =
      .ok (right.rows.filter fun other => (row.value on.1).sqlEq (other.value on.2)) := by
    refine Fallible.filterM_eq_ok_filter fun other member => ?_
    rw [Row.cell_eq_ok_value here, Row.cell_eq_ok_value (there other member)]
    rfl
  rw [joinRow, joinedRow, partners, Fallible.ok_bind]
  split
  · rfl
  · exact Fallible.mapM_eq_ok_map fun other member =>
      mergeRow_eq_ok ((fit_length width row).symm ▸ inside)

/-- The cells that a join compares exist. -/
theorem joinPositions_lt {on : String × String} {positions : Nat × Nat}
    (h : joinPositions left right on = .ok positions) :
    positions.1 < left.columns.length ∧ positions.2 < right.columns.length := by
  obtain ⟨a, b⟩ := on
  rw [joinPositions_eq] at h
  split at h
  · rename_i known
    cases h
    exact ⟨List.idxOf_lt_length_of_mem known.1, List.idxOf_lt_length_of_mem known.2⟩
  · split at h
    · rename_i known
      cases h
      exact ⟨List.idxOf_lt_length_of_mem known.1, List.idxOf_lt_length_of_mem known.2⟩
    · cases h

theorem join_eq (even : left.Rectangular) (even' : right.Rectangular) (on : String × String)
    (outer : Bool) :
    left.join right on outer = joined left right outer <$> joinPositions left right on := by
  rw [join]
  cases found : joinPositions left right on with
  | error e => rfl
  | ok positions =>
      obtain ⟨here, there⟩ := joinPositions_lt found
      have inside := (mergeColumns_lt left.columns right.columns).2
      have rows : left.rows.mapM (joinRow right positions
          (mergeColumns left.columns right.columns).1.length
          (mergeColumns left.columns right.columns).2 outer) = .ok (left.rows.map
            (joinedRow right positions (mergeColumns left.columns right.columns).1.length
              (mergeColumns left.columns right.columns).2 outer)) :=
        Fallible.mapM_eq_ok_map fun row member => joinRow_eq_ok outer
          (even row member ▸ here) (fun other found => even' other found ▸ there) inside
      simp only [Fallible.ok_bind, rows]
      rfl

/-- The columns to be compared are looked for whatever the rows are. -/
theorem join_eq_error_iff (even : left.Rectangular) (even' : right.Rectangular) {a b : String}
    {outer : Bool} {e : Error} : left.join right (a, b) outer = .error e ↔
      ¬(a ∈ left.columns ∧ b ∈ right.columns) ∧ ¬(b ∈ left.columns ∧ a ∈ right.columns) ∧
        e = .columnNotFound (if a ∉ left.columns ∧ a ∉ right.columns then a else b) := by
  rw [join_eq even even', joinPositions_eq]
  by_cases forward : a ∈ left.columns ∧ b ∈ right.columns
  · rw [if_pos forward]
    exact iff_of_false nofun fun h => h.1 forward
  · by_cases backward : b ∈ left.columns ∧ a ∈ right.columns
    · rw [if_neg forward, if_pos backward]
      exact iff_of_false nofun fun h => h.2.1 backward
    · rw [if_neg forward, if_neg backward, Fallible.map_error, Except.error.injEq, eq_comm]
      exact ⟨fun same => ⟨forward, backward, same⟩, fun h => h.2.2⟩

theorem rectangular_joined (left right : RowSet) (outer : Bool) (on : Nat × Nat) :
    (joined left right outer on).Rectangular := by
  intro row member
  obtain ⟨old, -, member⟩ := List.mem_flatMap.mp member
  rw [joinedRow] at member
  split at member
  · rw [List.mem_singleton.mp member]
    exact fit_length ..
  · obtain ⟨other, -, rfl⟩ := List.mem_map.mp member
    exact (Table.overwritten_length ..).trans (fit_length ..)

end RowSet

/-! ## The rows of a table -/

namespace Table

variable {t : Table}

/-- All rows of a table. -/
def rowSet (t : Table) : RowSet := ⟨t.columnNames, t.rows⟩

theorem Valid.rectangular (valid : t.Valid) : t.rowSet.Rectangular := fun row member =>
  (valid.widths row member).trans (List.length_map ..).symm

/-- The rows at the positions of those that pass a test. -/
theorem mapM_row_passing (t : Table) (test : Row → Bool) :
    (Row.passing test t.rows).mapM t.row = .ok (t.rows.filter test) := by
  have rows : ∀ e ∈ t.rows.zipIdx.filter fun e => test e.1, t.row e.2 = .ok e.1 := by
    intro e member
    have here := List.mk_mem_zipIdx_iff_getElem?.mp (List.mem_of_mem_filter member)
    rw [row, here]
  rw [Row.passing, Fallible.mapM_map_congr rows, Fallible.mapM_eq_ok_map fun e _ => rfl]
  rw [← Row.filter_zipIdx]

theorem mapM_row_positions (t : Table) (test : Value → Bool) (position : Nat) :
    (Row.positions test position t.rows).mapM t.row =
      .ok (t.rows.filter fun row => test (row.value position)) :=
  t.mapM_row_passing fun row => test (row.value position)

/-- To read the rows that satisfy a condition, with or without an index, is to filter all rows. -/
theorem read_eq (sound : t.Sound) (filter : Option (Condition Value)) :
    t.read filter = filter.elim (.ok t.rowSet) t.rowSet.filter := by
  cases filter with
  | none => rfl
  | some condition =>
      rw [Option.elim_some, RowSet.filter_eq sound.rectangular, read, find_eq sound, matching]
      by_cases known : condition.column ∈ t.columnNames
      · rw [if_pos known, if_pos (show condition.column ∈ t.rowSet.columns from known),
          Fallible.ok_bind, mapM_row_positions]
        rfl
      · rw [if_neg known, if_neg (show condition.column ∉ t.rowSet.columns from known)]
        rfl

end Table

end Tabular
