import Tabular.Proofs.Equality
import Tabular.Proofs.Fallible
import Tabular.Table.Integrity

/-! # What the rules for stored tables require

The check of a stored table goes through its schema, its rows, its unique columns and its indexes
with four loops. It succeeds exactly for the tables of which the conditions below hold.
-/

namespace Tabular

/-- The cell at a position, null where the row has none. -/
def Row.value (row : Row) (position : Nat) : Value := row.getD position .null

theorem Row.value_eq_getElem {row : Row} {position : Nat} (h : position < row.length) :
    row.value position = row[position] := by
  rw [Row.value, List.getD_eq_getElem?_getD, List.getElem?_eq_getElem h, Option.getD_some]

theorem Row.cell_eq_ok_value {row : Row} {position : Nat} (h : position < row.length) :
    Row.cell row position = .ok (row.value position) := by
  rw [Row.cell_eq_ok h, Row.value_eq_getElem h]

namespace Column

theorem check_eq_ok_iff {c : Column} {v : Value} : c.check v = .ok () ↔ c.stored v = .ok v := by
  rw [check]
  cases stored : c.stored v with
  | error e => simp
  | ok w =>
      by_cases same : w = v
      · simp [same, pure, Except.pure]
      · simp [same, throw, throwThe, MonadExceptOf.throw]

end Column

namespace Table

/-- The cells of a column. -/
def cells (t : Table) (position : Nat) : List Value := t.rows.map (Row.value · position)

theorem firstRepeated?_eq_none_iff {seen names : List String} :
    firstRepeated? seen names = none ↔ names.Nodup ∧ ∀ name ∈ names, name ∉ seen := by
  induction names generalizing seen with
  | nil => simp [firstRepeated?]
  | cons head rest ih =>
      by_cases repeated : head ∈ seen
      · simp [firstRepeated?, repeated]
      · rw [firstRepeated?, if_neg repeated, ih, List.nodup_cons, List.forall_mem_cons]
        constructor
        · rintro ⟨distinct, fresh⟩
          have fresh := fun name h => not_or.mp (List.mem_cons.not.mp (fresh name h))
          exact ⟨⟨fun again => (fresh head again).1 rfl, distinct⟩, repeated,
            fun name h => (fresh name h).2⟩
        · rintro ⟨⟨absent, distinct⟩, -, fresh⟩
          refine ⟨distinct, fun name h => List.mem_cons.not.mpr (not_or.mpr ⟨?_, fresh name h⟩)⟩
          rintro rfl
          exact absent h

theorem checkSchema_eq_ok_iff {t : Table} :
    t.checkSchema = .ok () ↔ t.columns ≠ [] ∧ t.columnNames.Nodup := by
  have repeated := @firstRepeated?_eq_none_iff [] t.columnNames
  rw [checkSchema]
  by_cases empty : t.columns = []
  · simp [empty, throw, throwThe, MonadExceptOf.throw]
  · cases found : firstRepeated? [] t.columnNames with
    | none =>
        rw [found] at repeated
        simpa [empty, pure, Except.pure] using repeated
    | some name =>
        rw [found] at repeated
        simpa [empty, throw, throwThe, MonadExceptOf.throw] using repeated

/-- Keys are compared as the language compares values. -/
theorem firstDuplicate?_eq_none_iff {seen : List Key} {cells : List Value} :
    firstDuplicate? seen cells = none ↔
      cells.Pairwise Value.Apart ∧
        ∀ v ∈ cells, v ≠ .null → v.isNaN = false → v.key ∉ seen := by
  induction cells generalizing seen with
  | nil => simp [firstDuplicate?]
  | cons head rest ih =>
      rw [firstDuplicate?, List.pairwise_cons, List.forall_mem_cons]
      by_cases exempt : head = .null ∨ head.isNaN = true
      · rw [if_pos exempt, ih]
        have apart : ∀ v ∈ rest, Value.Apart head v := fun v _ => Value.apart_of_exempt exempt
        grind
      · obtain ⟨present, number⟩ := not_or.mp exempt
        have number := Bool.eq_false_iff.mpr number
        have apart := fun v => @Value.apart_iff_of_present head v present
        rw [if_neg exempt]
        by_cases again : head.key ∈ seen
        · rw [if_pos again]
          refine iff_of_false nofun ?_
          rintro ⟨-, fresh, -⟩
          exact fresh present number again
        · rw [if_neg again, ih]
          grind

/-- The conditions of which the rules for stored tables consist. -/
structure Valid (t : Table) : Prop where
  columns : t.columns ≠ []
  names : t.columnNames.Nodup
  widths : ∀ row ∈ t.rows, row.length = t.columns.length
  stored : ∀ row ∈ t.rows, ∀ e ∈ t.columns.zip row, e.1.stored e.2 = .ok e.2
  unique : ∀ e ∈ t.columns.zipIdx, e.1.isUnique = true → (t.cells e.2).Pairwise Value.Apart
  filed : ∀ e ∈ t.indexes.toList, e.2.column = e.1 ∧ e.1 ∈ t.columnNames

theorem checkRow_eq_ok_iff {t : Table} {number : Nat} {row : Row} :
    t.checkRow number row = .ok () ↔
      row.length = t.columns.length ∧ ∀ e ∈ t.columns.zip row, e.1.stored e.2 = .ok e.2 := by
  rw [checkRow]
  by_cases wide : row.length = t.columns.length
  · simp only [wide, ne_eq, not_true_eq_false, if_false, true_and]
    exact Fallible.forM_eq_ok_iff.trans (forall₂_congr fun e _ => Column.check_eq_ok_iff)
  · simp [wide, throw, throwThe, MonadExceptOf.throw]

theorem checkUnique_eq_ok_iff {t : Table} {c : Column} {position : Nat}
    (wide : ∀ row ∈ t.rows, position < row.length) :
    t.checkUnique c position = .ok () ↔
      (c.isUnique = true → (t.cells position).Pairwise Value.Apart) := by
  rw [checkUnique]
  by_cases unique : c.isUnique = true
  · have cells : t.rows.mapM (Row.cell · position) = .ok (t.cells position) :=
      Fallible.mapM_eq_ok_map fun row member => Row.cell_eq_ok_value (wide row member)
    have distinct := @firstDuplicate?_eq_none_iff [] (t.cells position)
    simp only [unique, if_true, cells, Fallible.ok_bind, forall_const]
    cases found : firstDuplicate? [] (t.cells position) with
    | none =>
        rw [found] at distinct
        simpa [pure, Except.pure] using distinct
    | some v =>
        rw [found] at distinct
        simpa [throw, throwThe, MonadExceptOf.throw] using distinct
  · simp [unique, pure, Except.pure]

/-- Looking for a column by its name gives the first of that name, with its position. -/
theorem find?_zipIdx_of_mem {name : String} {columns : List Column} (start : Nat)
    (h : name ∈ columns.map (·.name)) :
    ∃ c, (columns.zipIdx start).find? (·.1.name = name) =
      some (c, start + (columns.map (·.name)).idxOf name) := by
  induction columns generalizing start with
  | nil => simp at h
  | cons head rest ih =>
      by_cases same : head.name = name
      · exact ⟨head, by simp [List.zipIdx_cons, same]⟩
      · obtain ⟨c, found⟩ := ih (start + 1) (by simpa [Ne.symm same] using h)
        refine ⟨c, ?_⟩
        rw [List.zipIdx_cons, List.find?_cons_of_neg (by simpa using same), found, List.map_cons,
          List.idxOf_cons_ne _ same]
        congr 2
        omega

/-- The position of a column that exists. -/
def position (t : Table) (name : String) : Nat := t.columnNames.idxOf name

theorem position_lt {t : Table} {name : String} (h : name ∈ t.columnNames) :
    t.position name < t.columns.length := by
  have below := List.idxOf_lt_length_of_mem h
  rwa [columnNames, List.length_map] at below

theorem column_of_mem {t : Table} {name : String} (h : name ∈ t.columnNames) :
    ∃ c, t.column name = .ok (c, t.position name) := by
  obtain ⟨c, found⟩ := find?_zipIdx_of_mem 0 h
  refine ⟨c, ?_⟩
  rw [column, found, Nat.zero_add]
  rfl

theorem column_of_not_mem {t : Table} {name : String} (h : name ∉ t.columnNames) :
    t.column name = .error (.columnNotFound name) := by
  have absent : t.columns.zipIdx.find? (·.1.name = name) = none := by
    rw [List.find?_eq_none]
    intro e member
    have : e.1.name ∈ t.columnNames :=
      List.mem_map_of_mem (List.fst_mem_of_mem_zipIdx member)
    simp only [decide_eq_true_eq]
    rintro rfl
    exact h this
  rw [column, absent]

theorem mem_of_column_eq_ok {t : Table} {name : String} {c : Column} {p : Nat}
    (h : t.column name = .ok (c, p)) : (c, p) ∈ t.columns.zipIdx ∧ c.name = name := by
  rw [column] at h
  split at h
  · rename_i found
    cases h
    exact ⟨List.mem_of_find?_eq_some found, by simpa using List.find?_some found⟩
  · cases h

theorem columnPosition_of_mem {t : Table} {name : String} (h : name ∈ t.columnNames) :
    t.columnPosition name = .ok (t.position name) := by
  obtain ⟨c, found⟩ := column_of_mem h
  rw [columnPosition, found, Fallible.map_ok]

theorem columnPosition_of_not_mem {t : Table} {name : String} (h : name ∉ t.columnNames) :
    t.columnPosition name = .error (.columnNotFound name) := by
  rw [columnPosition, column_of_not_mem h, Fallible.map_error]

theorem checkIndex_eq_ok_iff {t : Table} {filed : String} {index : Index} :
    t.checkIndex filed index = .ok () ↔ index.column = filed ∧ filed ∈ t.columnNames := by
  rw [checkIndex]
  by_cases covers : index.column = filed
  · by_cases known : filed ∈ t.columnNames
    · rw [if_neg (not_not.mpr covers), columnPosition_of_mem known]
      exact iff_of_true rfl ⟨covers, known⟩
    · rw [if_neg (not_not.mpr covers), columnPosition_of_not_mem known]
      exact iff_of_false nofun fun both => known both.2
  · rw [if_pos covers]
    exact iff_of_false nofun fun both => covers both.1

/-- The check of a stored table succeeds if and only if the table obeys all rules. -/
theorem check_eq_ok_iff {t : Table} : t.check = .ok () ↔ t.Valid := by
  have wide {row : Row} (width : row.length = t.columns.length) (e : Column × Nat)
      (member : e ∈ t.columns.zipIdx) : e.2 < row.length :=
    width ▸ List.snd_lt_of_mem_zipIdx member
  simp only [check, Fallible.then_eq_ok, Fallible.forM_eq_ok_iff, checkSchema_eq_ok_iff,
    checkRow_eq_ok_iff, checkIndex_eq_ok_iff]
  constructor
  · rintro ⟨⟨columns, names⟩, fits, unique, filed⟩
    have fits (row : Row) (member : row ∈ t.rows) : row.length = t.columns.length ∧
        ∀ e ∈ t.columns.zip row, e.1.stored e.2 = .ok e.2 := by
      obtain ⟨i, below, rfl⟩ := List.mem_iff_getElem.mp member
      exact fits (t.rows[i], i) (List.mk_mem_zipIdx_iff_getElem?.mpr (List.getElem?_eq_getElem below))
    refine ⟨columns, names, fun row member => (fits row member).1,
      fun row member => (fits row member).2, fun e member distinct => ?_, filed⟩
    exact (checkUnique_eq_ok_iff fun row h => wide (fits row h).1 e member).mp
      (unique e member) distinct
  · intro valid
    refine ⟨⟨valid.columns, valid.names⟩, ?_, fun e member => ?_, valid.filed⟩
    · exact fun e member =>
        have member := List.fst_mem_of_mem_zipIdx member
        ⟨valid.widths e.1 member, valid.stored e.1 member⟩
    · exact (checkUnique_eq_ok_iff fun row h => wide (valid.widths row h) e member).mpr
        (valid.unique e member)

end Table

end Tabular
