import Mathlib.Data.List.Flatten
import Mathlib.Data.List.Perm.Basic
import Tabular.Proofs.RowSets

/-! # What a join is made of

The columns of a join are those of the first set and then the new ones of the second, and each of
its rows is made up by the names of the columns: a pair takes from the second row what the second set
has, and a row without a partner is filled up with nulls. Without these rows the join is an inner
one.
-/

namespace Tabular.RowSet

variable {left right : RowSet}

/-- The columns that only the second set has. -/
def newColumns (left right : RowSet) : List String := right.columns.filter (· ∉ left.columns)

/-- The columns of two sets, a shared one only in its first place. -/
def allColumns (left right : RowSet) : List String := left.columns ++ left.newColumns right

/-- The row of a pair. A shared column takes its cell from the second row. -/
def paired (left right : RowSet) (row other : Row) : Row :=
  (left.allColumns right).map fun name =>
    if name ∈ right.columns then right.value name other else left.value name row

/-- A row without a partner, filled up with nulls. -/
def alone (left right : RowSet) (row : Row) : Row :=
  row ++ (left.newColumns right).map fun _ => .null

/-- The rows of the second set whose cell in column `b` equals the cell of a row in column `a`. -/
def partners (left right : RowSet) (a b : String) (row : Row) : List Row :=
  right.rows.filter fun other => (left.value a row).sqlEq (right.value b other)

/-- The rows that one row of the first set gives. -/
def withPartners (left right : RowSet) (a b : String) (outer : Bool) (row : Row) : List Row :=
  if outer ∧ left.partners right a b row = [] then [left.alone right row]
  else (left.partners right a b row).map (left.paired right row)

/-- The join of two sets on column `a` of the first and column `b` of the second. -/
def joinedOn (left right : RowSet) (a b : String) (outer : Bool) : RowSet :=
  { columns := left.allColumns right
    rows := left.rows.flatMap (left.withPartners right a b outer) }

/-! ## Columns -/

theorem nodup_allColumns (distinct : left.columns.Nodup) (distinct' : right.columns.Nodup) :
    (left.allColumns right).Nodup := by
  apply distinct.append (distinct'.filter _)
  intro name known new
  simpa [known] using List.of_mem_filter new

theorem mem_allColumns {name : String} :
    name ∈ left.allColumns right ↔ name ∈ left.columns ∨ name ∈ right.columns := by
  simp only [allColumns, newColumns, List.mem_append, List.mem_filter, decide_eq_true_eq]
  tauto

/-- Each column of the second set is written to the place of its name. -/
theorem mergeColumns_eq (columns : List String) {others : List String} (distinct : others.Nodup) :
    mergeColumns columns others = (columns ++ others.filter (· ∉ columns),
      others.map (columns ++ others.filter (· ∉ columns)).idxOf) := by
  induction others generalizing columns with
  | nil => simp [mergeColumns]
  | cons name rest ih =>
      obtain ⟨new, distinct⟩ := List.nodup_cons.mp distinct
      rw [mergeColumns]
      by_cases known : name ∈ columns
      · have place : (columns ++ rest.filter (· ∉ columns)).idxOf name = columns.idxOf name :=
          List.idxOf_append_of_mem known
        simp only [idxOf?_of_mem known, ih columns distinct, List.filter_cons, known,
          not_true_eq_false, decide_false, Bool.false_eq_true, if_false, List.map_cons, place]
      · have later : rest.filter (· ∉ columns ++ [name]) = rest.filter (· ∉ columns) := by
          apply List.filter_congr
          intro other member
          have apart : other ≠ name := fun same => new (same ▸ member)
          simp [apart]
        have place : (columns ++ name :: rest.filter (· ∉ columns)).idxOf name =
            columns.length := by
          rw [List.idxOf_append_of_notMem known, List.idxOf_cons_self, Nat.add_zero]
        simp only [List.idxOf?_eq_none_iff.mpr known, ih (columns ++ [name]) distinct, later,
          List.append_assoc, List.singleton_append, List.filter_cons, known, not_false_eq_true,
          decide_true, if_true, List.map_cons, place]

theorem mergeColumns_columns (distinct : right.columns.Nodup) :
    mergeColumns left.columns right.columns =
      (left.allColumns right, right.columns.map (left.allColumns right).idxOf) :=
  mergeColumns_eq left.columns distinct

/-! ## Rows -/

theorem fit_eq_alone {row : Row} (wide : row.length = left.columns.length) :
    fit (left.allColumns right).length row = left.alone right row := by
  have nulls : (left.newColumns right).map (fun _ => Value.null) =
      List.replicate (left.newColumns right).length .null := List.map_const' ..
  have rest : (left.allColumns right).length - row.length = (left.newColumns right).length := by
    simp only [allColumns, List.length_append]
    omega
  have whole : (left.alone right row).length = (left.allColumns right).length := by
    simp only [alone, allColumns, List.length_append, List.length_map, wide]
  have filled : row.rightpad (left.allColumns right).length .null = left.alone right row := by
    rw [List.rightpad, rest, alone, nulls]
  rw [fit, filled, ← whole, List.take_length]

theorem value_alone {row : Row} (wide : row.length = left.columns.length) {name : String}
    (known : name ∈ left.columns) :
    (left.alone right row).value ((left.allColumns right).idxOf name) = left.value name row := by
  have inside : left.columns.idxOf name < row.length := wide ▸ List.idxOf_lt_length_of_mem known
  have place : (left.allColumns right).idxOf name = left.columns.idxOf name :=
    List.idxOf_append_of_mem known
  simp only [place, value, Row.value, alone, List.getD_eq_getElem?_getD,
    List.getElem?_append_left inside]

/-- A cell of the second row is written to the place of the column that it stands in. -/
theorem mem_zip_places {columns names : List String} {other : Row} (known : names ⊆ columns)
    (distinct : names.Nodup) (wide : other.length = names.length) {name : String} {v : Value}
    (listed : name ∈ columns) :
    (columns.idxOf name, v) ∈ (names.map columns.idxOf).zip other ↔
      name ∈ names ∧ v = other.value (names.idxOf name) := by
  rw [List.mem_iff_getElem?]
  simp only [List.getElem?_zip_eq_some, List.getElem?_map, Option.map_eq_some_iff]
  constructor
  · rintro ⟨i, ⟨name', here, place⟩, cell⟩
    obtain ⟨below, rfl⟩ := List.getElem?_eq_some_iff.mp here
    have same : names[i] = name :=
      (List.idxOf_inj (known (List.getElem_mem below))).mp place
    obtain ⟨inside, rfl⟩ := List.getElem?_eq_some_iff.mp cell
    subst same
    rw [distinct.idxOf_getElem i below, Row.value_eq_getElem inside]
    exact ⟨List.getElem_mem below, rfl⟩
  · rintro ⟨member, rfl⟩
    have below := List.idxOf_lt_length_of_mem member
    refine ⟨names.idxOf name, ⟨name, ?_, rfl⟩, ?_⟩
    · simp [below]
    · rw [Row.value_eq_getElem (wide ▸ below)]
      simp [wide, below]

theorem overwritten_eq_paired (distinct : left.columns.Nodup) (distinct' : right.columns.Nodup)
    {row other : Row} (wide : row.length = left.columns.length)
    (wide' : other.length = right.columns.length) :
    Table.overwritten (left.alone right row)
      ((right.columns.map (left.allColumns right).idxOf).zip other) =
      left.paired right row other := by
  have width : (left.alone right row).length = (left.allColumns right).length := by
    simp only [alone, allColumns, List.length_append, List.length_map, wide]
  have known : right.columns ⊆ left.allColumns right := fun name member =>
    mem_allColumns.mpr (.inr member)
  apply List.ext_getElem
  · rw [Table.overwritten_length, width, paired, List.length_map]
  · intro i below below'
    have listed : i < (left.allColumns right).length := by
      rwa [Table.overwritten_length, width] at below
    rw [← Row.value_eq_getElem below]
    simp only [paired, List.getElem_map]
    generalize column : (left.allColumns right)[i] = name
    have place : (left.allColumns right).idxOf name = i := by
      rw [← column]
      exact (nodup_allColumns distinct distinct').idxOf_getElem i listed
    have member : name ∈ left.allColumns right := column ▸ List.getElem_mem listed
    have cells (v : Value) := mem_zip_places (v := v) known distinct' wide' member
    rw [← place]
    apply Table.overwritten_value_eq
    · rwa [place, width]
    · intro w written
      obtain ⟨shared, rfl⟩ := (cells w).mp written
      rw [if_pos shared, value]
    · by_cases shared : name ∈ right.columns
      · left
        rw [if_pos shared]
        exact (cells _).mpr ⟨shared, rfl⟩
      · right
        rw [if_neg shared]
        exact value_alone wide ((mem_allColumns.mp member).resolve_right shared)

/-! ## Whole joins -/

theorem joined_eq_joinedOn (even : left.Rectangular) (even' : right.Rectangular)
    (distinct : left.columns.Nodup) (distinct' : right.columns.Nodup) (a b : String)
    (outer : Bool) :
    joined left right outer (left.columns.idxOf a, right.columns.idxOf b) =
      left.joinedOn right a b outer := by
  have rows : ∀ row ∈ left.rows, joinedRow right (left.columns.idxOf a, right.columns.idxOf b)
      (left.allColumns right).length (right.columns.map (left.allColumns right).idxOf) outer row =
      left.withPartners right a b outer row := by
    intro row member
    have same : (left.partners right a b row).map (fun other => Table.overwritten
        (left.alone right row) ((right.columns.map (left.allColumns right).idxOf).zip other)) =
        (left.partners right a b row).map (left.paired right row) := by
      apply List.map_congr_left
      intro other partner
      exact overwritten_eq_paired distinct distinct' (even row member)
        (even' other (List.mem_of_mem_filter partner))
    rw [withPartners, ← same, joinedRow, fit_eq_alone (even row member)]
    rfl
  simp only [joined, joinedOn, mergeColumns_columns distinct', List.flatMap,
    List.map_congr_left rows]

/-- An outer join gives what an inner one gives, and for a row without a partner that row alone. -/
theorem withPartners_outer (left right : RowSet) (a b : String) (row : Row) :
    left.withPartners right a b true row = left.withPartners right a b false row ++
      if left.partners right a b row = [] then [left.alone right row] else [] := by
  unfold withPartners
  by_cases none : left.partners right a b row = []
  · simp [none]
  · simp [none]

theorem flatMap_unpaired (left right : RowSet) (a b : String) (rows : List Row) :
    (rows.flatMap fun row =>
      if left.partners right a b row = [] then [left.alone right row] else []) =
      (rows.filter (left.partners right a b · = [])).map (left.alone right) := by
  induction rows with
  | nil => rfl
  | cons row rest ih =>
      by_cases none : left.partners right a b row = []
      · simp [none, ih]
      · simp [none, ih]

/-- The rows of an outer join are those of the inner one, each in its place, and one for each row that
    has no partner. -/
theorem inner_in_outer (left right : RowSet) (a b : String) :
    (left.joinedOn right a b false).rows.Sublist (left.joinedOn right a b true).rows ∧
      (left.joinedOn right a b true).rows.Perm ((left.joinedOn right a b false).rows ++
        (left.rows.filter (left.partners right a b · = [])).map (left.alone right)) := by
  have split : (left.joinedOn right a b true).rows = left.rows.flatMap fun row =>
      left.withPartners right a b false row ++
        if left.partners right a b row = [] then [left.alone right row] else [] :=
    congrArg left.rows.flatMap (funext (left.withPartners_outer right a b))
  rw [split]
  constructor
  · exact List.Sublist.flatMap_right _ fun row _ => List.sublist_append_left ..
  · rw [← flatMap_unpaired]
    exact (List.flatMap_append_perm ..).symm

/-- A join compares the two columns in the order in which the two sets have them, and fails if they
    have them in neither order. It pairs each row with its partners in order, and an inner join is an
    outer one without the one row for each row that has no partner. -/
theorem join_exact (even : left.Rectangular) (even' : right.Rectangular)
    (distinct : left.columns.Nodup) (distinct' : right.columns.Nodup) :
    (∀ a b outer, left.join right (a, b) outer =
      if a ∈ left.columns ∧ b ∈ right.columns then .ok (left.joinedOn right a b outer)
      else if b ∈ left.columns ∧ a ∈ right.columns then .ok (left.joinedOn right b a outer)
      else .error (.columnNotFound (if a ∉ left.columns ∧ a ∉ right.columns then a else b))) ∧
    ∀ a b, (left.joinedOn right a b false).columns = (left.joinedOn right a b true).columns ∧
      (left.joinedOn right a b false).rows.Sublist (left.joinedOn right a b true).rows ∧
      (left.joinedOn right a b true).rows.Perm ((left.joinedOn right a b false).rows ++
        (left.rows.filter (left.partners right a b · = [])).map (left.alone right)) := by
  constructor
  · intro a b outer
    rw [join_eq even even', joinPositions_eq]
    have on := joined_eq_joinedOn even even' distinct distinct'
    by_cases forward : a ∈ left.columns ∧ b ∈ right.columns
    · simp only [forward, and_self, if_true, Fallible.map_ok, on]
    · rw [if_neg forward, if_neg forward]
      by_cases backward : b ∈ left.columns ∧ a ∈ right.columns
      · simp only [backward, and_self, if_true, Fallible.map_ok, on]
      · rw [if_neg backward, if_neg backward, Fallible.map_error]
  · intro a b
    exact ⟨rfl, left.inner_in_outer right a b⟩

/-- The columns are given the other way round, one of them is shared, null is a partner of null, and
    the last row has none. -/
theorem shared_column_joined :
    let left : RowSet := ⟨["a", "b"], [[.integer 1, .null], [.integer 2, .integer 7],
      [.integer 3, .integer 8]]⟩
    let right : RowSet := ⟨["c", "a"], [[.float (.ofInt64 7), .integer 5], [.null, .null]]⟩
    left.join right ("c", "b") true = .ok ⟨["a", "b", "c"], [[.null, .null, .null],
      [.integer 5, .integer 7, .float (.ofInt64 7)], [.integer 3, .integer 8, .null]]⟩ ∧
    left.join right ("c", "b") true = .ok (left.joinedOn right "b" "c" true) ∧
    left.join right ("c", "d") true = .error (.columnNotFound "d") ∧
    (left.joinedOn right "b" "c" true).rows.Perm ((left.joinedOn right "b" "c" false).rows ++
      [[.integer 3, .integer 8, .null]]) := by
  intro left right
  have even : left.Rectangular := by unfold Rectangular; decide +kernel
  have even' : right.Rectangular := by unfold Rectangular; decide +kernel
  have distinct : left.columns.Nodup := by decide +kernel
  have distinct' : right.columns.Nodup := by decide +kernel
  obtain ⟨joins, without⟩ := join_exact even even' distinct distinct'
  have lonely : (left.rows.filter (left.partners right "b" "c" · = [])).map (left.alone right) =
      [[.integer 3, .integer 8, .null]] := by decide +kernel
  refine ⟨by decide +kernel, ?_, ?_, lonely ▸ (without "b" "c").2.2⟩
  · rw [joins]
    rfl
  · rw [joins]
    rfl

end Tabular.RowSet
