import Mathlib.Data.List.Induction
import Tabular.Proofs.Fallible
import Tabular.Proofs.Integrity
import Tabular.Proofs.SortedMaps
import Tabular.Table.Lookup

/-! # What an index holds

An index made from rows files, under each key, the positions of the rows with that key. It can be
extended by one row at the end, and it finds exactly the rows that a scan finds.
-/

namespace Tabular

/-- The positions of the rows that pass a test, in increasing order. -/
def Row.passing (test : Row → Bool) (rows : List Row) : List Nat :=
  (rows.zipIdx.filter fun e => test e.1).map (·.2)

/-- The positions of the rows whose cell in a column passes a test, in increasing order. -/
def Row.positions (test : Value → Bool) (position : Nat) (rows : List Row) : List Nat :=
  Row.passing (fun row => test (row.value position)) rows

namespace Row

theorem passing_sorted (test : Row → Bool) (rows : List Row) :
    (passing test rows).Pairwise (· < ·) := by
  have all : (rows.zipIdx.map Prod.snd).Pairwise (· < ·) := by
    rw [List.zipIdx_map_snd]
    exact List.pairwise_lt_range'
  exact all.sublist (List.filter_sublist.map _)

theorem mem_passing {test : Row → Bool} {i : Nat} {rows : List Row} :
    i ∈ passing test rows ↔ ∃ row, rows[i]? = some row ∧ test row := by
  rw [passing, List.mem_map]
  constructor
  · rintro ⟨⟨row, j⟩, member, rfl⟩
    obtain ⟨member, holds⟩ := List.mem_filter.mp member
    exact ⟨row, List.mk_mem_zipIdx_iff_getElem?.mp member, holds⟩
  · rintro ⟨row, here, holds⟩
    exact ⟨(row, i), List.mem_filter.mpr ⟨List.mk_mem_zipIdx_iff_getElem?.mpr here, holds⟩, rfl⟩

/-- Choosing among numbered rows by a test of rows is to filter the rows. -/
theorem filter_zipIdx (test : Row → Bool) (rows : List Row) :
    (rows.zipIdx.filter fun e => test e.1).map Prod.fst = rows.filter test := by
  conv_rhs => rw [← List.zipIdx_map_fst 0 rows, List.filter_map]
  rfl

theorem length_passing (test : Row → Bool) (rows : List Row) :
    (passing test rows).length = (rows.filter test).length := by
  rw [← filter_zipIdx]
  simp [passing]

theorem passing_congr {test test' : Row → Bool} {rows : List Row}
    (same : ∀ row ∈ rows, test row = test' row) : passing test rows = passing test' rows := by
  unfold passing
  congr 1
  apply List.filter_congr
  intro e member
  exact same e.1 (List.fst_mem_of_mem_zipIdx member)

theorem passing_map (test : Row → Bool) (f : Row → Row) (rows : List Row) :
    passing test (rows.map f) = passing (fun row => test (f row)) rows := by
  simp only [passing, List.zipIdx_map, List.filter_map, List.map_map]
  rfl

theorem passing_append_one (test : Row → Bool) (rows : List Row) (row : Row) :
    passing test (rows ++ [row]) = passing test rows ++ if test row then [rows.length] else [] := by
  rw [passing, passing, List.zipIdx_append, List.filter_append, List.map_append, Nat.zero_add]
  congr 1
  cases holds : test row <;> simp [holds]

theorem positions_append_one (test : Value → Bool) (position : Nat) (rows : List Row) (row : Row) :
    positions test position (rows ++ [row]) =
      positions test position rows ++ if test (row.value position) then [rows.length] else [] :=
  passing_append_one _ rows row

theorem positions_sorted (test : Value → Bool) (position : Nat) (rows : List Row) :
    (positions test position rows).Pairwise (· < ·) :=
  passing_sorted _ rows

theorem mem_positions {test : Value → Bool} {position i : Nat} {rows : List Row} :
    i ∈ positions test position rows ↔ ∃ row, rows[i]? = some row ∧ test (row.value position) :=
  mem_passing

theorem lt_of_mem_positions {test : Value → Bool} {position i : Nat} {rows : List Row}
    (h : i ∈ positions test position rows) : i < rows.length := by
  obtain ⟨row, here, -⟩ := mem_positions.mp h
  exact (List.getElem?_eq_some_iff.mp here).1

end Row

namespace Index

/-- The index of the column at a position, with null in the place of cells that do not exist. -/
def of (name column : String) (position : Nat) (rows : List Row) : Index :=
  rows.zipIdx.foldl (fun index e => index.add (e.1.value position) e.2)
    { name, column, entries := ∅ }

theorem build_eq_ok {name column : String} {position : Nat} {rows : List Row}
    (wide : ∀ row ∈ rows, position < row.length) :
    build name column position rows = .ok (of name column position rows) := by
  refine Fallible.foldlM_eq_ok_foldl (fun index e member => ?_) _
  have cell := Row.cell_eq_ok_value (wide e.1 (List.fst_mem_of_mem_zipIdx member))
  obtain ⟨row, i⟩ := e
  simp only [cell, Fallible.ok_bind]
  rfl

/-- Recording a row after all others gives the index of the longer list. -/
theorem of_append_one (name column : String) (position : Nat) (rows : List Row) (row : Row) :
    of name column position (rows ++ [row]) =
      (of name column position rows).add (row.value position) rows.length := by
  rw [of, List.zipIdx_append, List.foldl_append, Nat.zero_add]
  rfl

@[simp] theorem add_name (index : Index) (v : Value) (position : Nat) :
    (index.add v position).name = index.name := rfl

@[simp] theorem add_column (index : Index) (v : Value) (position : Nat) :
    (index.add v position).column = index.column := rfl

@[simp] theorem of_name (name column : String) (position : Nat) (rows : List Row) :
    (of name column position rows).name = name := by
  induction rows using List.reverseRecOn with
  | nil => rfl
  | append_singleton rows row ih => rw [of_append_one, add_name, ih]

@[simp] theorem of_column (name column : String) (position : Nat) (rows : List Row) :
    (of name column position rows).column = column := by
  induction rows using List.reverseRecOn with
  | nil => rfl
  | append_singleton rows row ih => rw [of_append_one, add_column, ih]

theorem get?_add (index : Index) (v : Value) (position : Nat) (k : Key) :
    (index.add v position).entries.get? k =
      if k = v.key then some ((index.entries.get? v.key).getD [] ++ [position])
      else index.entries.get? k := by
  rw [add, SortedMap.get?_insert]
  simp only [Std.LawfulEqOrd.compare_eq_iff_eq]

/-- Under each key stand the positions of the rows with that key, and there are no other keys. -/
theorem get?_of (name column : String) (position : Nat) (rows : List Row) (k : Key) :
    (of name column position rows).entries.get? k =
      match Row.positions (fun v => v.key = k) position rows with
      | [] => none
      | found => some found := by
  induction rows using List.reverseRecOn with
  | nil => rfl
  | append_singleton rows row ih =>
      rw [of_append_one, get?_add, Row.positions_append_one]
      by_cases here : (row.value position).key = k
      · subst here
        rw [ih]
        simp only [decide_true, if_true]
        cases found : Row.positions (fun v => v.key = (row.value position).key) position rows with
        | nil => rfl
        | cons first others => rfl
      · rw [if_neg (Ne.symm here), ih]
        simp only [here, decide_false, Bool.false_eq_true, if_false, List.append_nil]

/-- The index finds what a comparison with every row finds. -/
theorem lookup_of (name column : String) (position : Nat) (rows : List Row) (v : Value) :
    (of name column position rows).lookup v = Row.positions (·.sqlEq v) position rows := by
  rw [lookup]
  cases undefined : v.isNaN with
  | true =>
      simp [Row.positions, Row.passing, Value.sqlEq_of_isNaN undefined]
  | false =>
      have same : (fun w : Value => w.sqlEq v) = fun w => decide (w.key = v.key) := by
        funext w
        rw [Bool.eq_iff_iff, decide_eq_true_eq]
        exact Value.sqlEq_iff_of_number undefined
      rw [same, get?_of]
      cases Row.positions (fun w => decide (w.key = v.key)) position rows <;> rfl

/-- An index that holds the position of every row under the key of its cell in a column, in
    increasing order, and nothing else. -/
structure Exact (index : Index) (position : Nat) (rows : List Row) : Prop where
  ascending : ∀ k positions, index.entries.get? k = some positions →
    positions ≠ [] ∧ positions.Pairwise (· < ·)
  complete : ∀ k i, (∃ positions, index.entries.get? k = some positions ∧ i ∈ positions) ↔
    ∃ row v, rows[i]? = some row ∧ row[position]? = some v ∧ v.key = k

theorem exact_of {name column : String} {position : Nat} {rows : List Row}
    (wide : ∀ row ∈ rows, position < row.length) :
    (of name column position rows).Exact position rows := by
  constructor
  · intro k positions found
    rw [get?_of] at found
    have sorted := Row.positions_sorted (fun v => v.key = k) position rows
    split at found
    · cases found
    · rename_i some
      cases found
      exact ⟨some, sorted⟩
  · intro k i
    have filed : (∃ positions, (of name column position rows).entries.get? k = some positions ∧
        i ∈ positions) ↔ i ∈ Row.positions (fun v => v.key = k) position rows := by
      rw [get?_of]
      cases Row.positions (fun v => v.key = k) position rows with
      | nil => simp
      | cons first others => simp
    rw [filed, Row.mem_positions]
    constructor
    · rintro ⟨row, here, same⟩
      have below := wide row (List.mem_of_getElem? here)
      refine ⟨row, row.value position, here, ?_, by simpa using same⟩
      rw [List.getElem?_eq_getElem below, Row.value_eq_getElem below]
    · rintro ⟨row, v, here, cell, rfl⟩
      obtain ⟨below, rfl⟩ := List.getElem?_eq_some_iff.mp cell
      exact ⟨row, here, by rw [Row.value_eq_getElem below, decide_eq_true rfl]⟩

end Index

namespace Table

/-- If every row has a cell in the column, a scan finds the positions of the rows whose cell is equal
    to the value. -/
theorem scan_eq_ok {t : Table} {position : Nat} {v : Value}
    (wide : ∀ row ∈ t.rows, position < row.length) :
    t.scan position v = .ok (Row.positions (·.sqlEq v) position t.rows) := by
  have found : (t.rows.zipIdx.filterM fun e => do return (← Row.cell e.1 position).sqlEq v) =
      .ok (t.rows.zipIdx.filter fun e => (e.1.value position).sqlEq v) := by
    refine Fallible.filterM_eq_ok_filter fun e member => ?_
    rw [Row.cell_eq_ok_value (wide e.1 (List.fst_mem_of_mem_zipIdx member))]
    rfl
  rw [scan]
  exact congrArg (fun x => x >>= fun found => pure (found.map (·.2))) found

end Table

end Tabular
