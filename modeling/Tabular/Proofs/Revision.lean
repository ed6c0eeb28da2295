import Tabular.Proofs.Filing
import Tabular.Proofs.Integrity
import Tabular.Proofs.Targets
import Tabular.Table.Assembly

/-! # Rows that a table accepts

The rows that a change leaves behind are worked out before anything is written. Whenever that
succeeds, the table with these rows obeys the rules for stored tables again.
-/

namespace Tabular

/-- What a column has stored it stores unchanged. -/
theorem Column.stored_stored {c : Column} {v w : Value} (h : c.stored v = .ok w) :
    c.stored w = .ok w := by
  unfold stored at h
  split at h
  · split at h
    · rename_i null
      cases h
      rw [stored, if_pos null]
    · cases h
  · rename_i float
    cases h
    simp only [stored, float, Value.dataType?, if_true]
  · split at h
    · cases h
      rw [stored]
      · rw [if_pos ‹_›]
      · assumption
      · assumption
    · cases h

theorem Row.value_set_self {row : Row} {i : Nat} (inside : i < row.length) (v : Value) :
    value (row.set i v) i = v := by
  simp [Row.value, inside]

theorem Row.value_set_of_ne (row : Row) {i position : Nat} (other : i ≠ position) (v : Value) :
    value (row.set i v) position = row.value position := by
  simp [Row.value, List.getElem?_set_ne other]

theorem Row.value_set (row : Row) (i : Nat) (v : Value) (position : Nat) :
    value (row.set i v) position = row.value position ∨
      i = position ∧ value (row.set i v) position = v := by
  by_cases here : i = position
  · subst here
    by_cases inside : i < row.length
    · exact .inr ⟨rfl, value_set_self inside v⟩
    · left
      rw [List.set_eq_of_length_le (by omega)]
  · exact .inl (value_set_of_ne row here v)

namespace Table

variable {t : Table}

theorem mem_zip_zipIdx_iff {columns : List Column} {row : Row}
    (wide : row.length = columns.length) {c : Column} {v : Value} {p : Nat} :
    ((c, v), p) ∈ (columns.zip row).zipIdx ↔ (c, p) ∈ columns.zipIdx ∧ v = row.value p := by
  simp only [List.mk_mem_zipIdx_iff_getElem?, List.getElem?_zip_eq_some]
  constructor
  · rintro ⟨here, there⟩
    obtain ⟨below, rfl⟩ := List.getElem?_eq_some_iff.mp there
    exact ⟨here, (Row.value_eq_getElem below).symm⟩
  · rintro ⟨here, rfl⟩
    have below : p < row.length := wide ▸ (List.getElem?_eq_some_iff.mp here).1
    rw [Row.value_eq_getElem below]
    exact ⟨here, List.getElem?_eq_getElem below⟩

theorem mem_zip_iff {columns : List Column} {row : Row} (wide : row.length = columns.length)
    {c : Column} {v : Value} :
    (c, v) ∈ columns.zip row ↔ ∃ p, (c, p) ∈ columns.zipIdx ∧ v = row.value p := by
  rw [List.mem_iff_getElem?]
  exact exists_congr fun p =>
    List.mk_mem_zipIdx_iff_getElem?.symm.trans (mem_zip_zipIdx_iff wide)

theorem stored_iff_value {columns : List Column} {row : Row} (wide : row.length = columns.length) :
    (∀ e ∈ columns.zip row, e.1.stored e.2 = .ok e.2) ↔
      ∀ e ∈ columns.zipIdx, e.1.stored (row.value e.2) = .ok (row.value e.2) := by
  constructor
  · intro stored e member
    exact stored (e.1, row.value e.2) ((mem_zip_iff wide).mpr ⟨e.2, member, rfl⟩)
  · rintro stored ⟨c, v⟩ member
    obtain ⟨p, place, rfl⟩ := (mem_zip_iff wide).mp member
    exact stored (c, p) place

theorem Valid.stored_value (valid : t.Valid) {row : Row} (member : row ∈ t.rows) :
    ∀ e ∈ t.columns.zipIdx, e.1.stored (row.value e.2) = .ok (row.value e.2) :=
  (stored_iff_value (valid.widths row member)).mp (valid.stored row member)

/-! ## New rows -/

/-- The rows of a table with a new one at the end, if the table accepts it. -/
def insertion (t : Table) (row : Row) : Except Error (List Row) := do
  let stored ← t.storedRow row
  t.checkNew stored
  return t.rows ++ [stored]

theorem storedRow_eq_ok {row stored : Row} (h : t.storedRow row = .ok stored) :
    stored.length = t.columns.length ∧
      ∀ e ∈ t.columns.zipIdx, e.1.stored (row.value e.2) = .ok (stored.value e.2) := by
  rw [storedRow] at h
  by_cases wide : row.length = t.columns.length
  · rw [if_neg (not_not.mpr wide)] at h
    have cells := Fallible.mapM_eq_ok_iff.mp h
    have length := cells.length_eq
    rw [List.length_zip] at length
    refine ⟨by omega, ?_⟩
    rintro ⟨c, p⟩ member
    obtain ⟨here, same⟩ := List.getElem?_eq_some_iff.mp (List.mk_mem_zipIdx_iff_getElem?.mp member)
    have given : p < row.length := by omega
    have kept : p < stored.length := by omega
    have cell := cells.get (by rw [List.length_zip]; omega) kept
    rw [List.get_eq_getElem, List.get_eq_getElem, List.getElem_zip] at cell
    rw [Row.value_eq_getElem given, Row.value_eq_getElem kept, ← same]
    exact cell
  · rw [if_pos wide] at h
    cases h

theorem holds_eq_ok {position : Nat} {v : Value} (wide : ∀ row ∈ t.rows, position < row.length) :
    t.holds position v = .ok (t.rows.any fun row => (row.value position).sqlEq v) := by
  refine Fallible.anyM_eq_ok_any fun row member => ?_
  rw [Row.cell_eq_ok_value (wide row member)]
  rfl

/-- Among rows that have the cell, a value is accepted in it if it is apart from all others there. -/
theorem checkCell_eq_ok_iff {c : Column} {v : Value} {position : Nat}
    (wide : ∀ row ∈ t.rows, position < row.length) :
    (do if c.isUnique ∧ v ≠ .null then
          if ← t.holds position v then throw (.duplicateValue c.name v)
      : Except Error PUnit) = .ok ⟨⟩ ↔
      (c.isUnique = true → ∀ row ∈ t.rows, Value.Apart (row.value position) v) := by
  by_cases guarded : c.isUnique = true ∧ v ≠ .null
  · obtain ⟨unique, present⟩ := guarded
    rw [if_pos ⟨unique, present⟩, holds_eq_ok wide, Fallible.ok_bind]
    simp only [unique, forall_const, Value.apart_iff_sqlEq present]
    by_cases held : (t.rows.any fun row => (row.value position).sqlEq v) = true
    · rw [if_pos held]
      obtain ⟨row, member, same⟩ := List.any_eq_true.mp held
      exact iff_of_false nofun fun apart => Bool.false_ne_true ((apart row member).symm.trans same)
    · rw [if_neg held]
      refine iff_of_true rfl fun row member => Bool.eq_false_iff.mpr fun same => held ?_
      exact List.any_eq_true.mpr ⟨row, member, same⟩
  · rw [if_neg guarded]
    refine iff_of_true rfl fun unique row member => ?_
    have null : v = .null := not_not.mp fun present => guarded ⟨unique, present⟩
    exact Value.Apart.symm (.inl null)

/-- A new row is accepted if its cells in unique columns are apart from those of the others. -/
theorem checkNew_eq_ok_iff (widths : ∀ old ∈ t.rows, old.length = t.columns.length) {row : Row}
    (wide : row.length = t.columns.length) :
    t.checkNew row = .ok () ↔ ∀ e ∈ t.columns.zipIdx, e.1.isUnique = true → ∀ old ∈ t.rows,
      Value.Apart (old.value e.2) (row.value e.2) := by
  have inside {c : Column} {p : Nat} (place : (c, p) ∈ t.columns.zipIdx) :
      ∀ old ∈ t.rows, p < old.length := fun old member =>
    widths old member ▸ List.snd_lt_of_mem_zipIdx place
  refine Fallible.forM_eq_ok_iff.trans ⟨?_, ?_⟩
  · rintro accepted ⟨c, p⟩ place
    have cell := (mem_zip_zipIdx_iff wide).mpr ⟨place, rfl⟩
    exact (checkCell_eq_ok_iff (inside place)).mp (accepted _ cell)
  · rintro apart ⟨⟨c, v⟩, p⟩ member
    obtain ⟨place, rfl⟩ := (mem_zip_zipIdx_iff wide).mp member
    exact (checkCell_eq_ok_iff (inside place)).mpr (apart (c, p) place)

theorem cells_append (t : Table) (rows : List Row) (row : Row) (position : Nat) :
    cells { t with rows := rows ++ [row] } position =
      cells { t with rows } position ++ [row.value position] := by
  rw [cells, List.map_append]
  rfl

theorem valid_insertion (valid : t.Valid) {row : Row} {rows : List Row}
    (h : t.insertion row = .ok rows) : Valid { t with rows } := by
  obtain ⟨stored, accepted, h⟩ := Fallible.bind_eq_ok.mp h
  obtain ⟨fresh, h⟩ := Fallible.then_eq_ok.mp h
  cases h
  obtain ⟨wide, cells⟩ := storedRow_eq_ok accepted
  refine ⟨valid.columns, valid.names, ?_, ?_, ?_, valid.filed⟩
  · intro other member
    rcases List.mem_append.mp member with old | new
    · exact valid.widths other old
    · rw [List.mem_singleton.mp new, wide]
  · intro other member
    rcases List.mem_append.mp member with old | new
    · exact valid.stored other old
    · rw [List.mem_singleton.mp new]
      exact (stored_iff_value wide).mpr fun e place => Column.stored_stored (cells e place)
  · intro e place unique
    rw [cells_append, List.pairwise_append]
    refine ⟨valid.unique e place unique, List.pairwise_singleton .., ?_⟩
    intro v old w new
    obtain ⟨other, member, rfl⟩ := List.mem_map.mp old
    rw [List.mem_singleton.mp new]
    exact (checkNew_eq_ok_iff valid.widths wide).mp fresh e place unique other member

/-! ## Changed rows -/

/-- A row with other values in some cells. -/
def overwritten (row : Row) (cells : List (Nat × Value)) : Row :=
  cells.foldl (fun row cell => row.set cell.1 cell.2) row

theorem overwritten_length (row : Row) (cells : List (Nat × Value)) :
    (overwritten row cells).length = row.length := by
  induction cells generalizing row with
  | nil => rfl
  | cons cell rest ih =>
      rw [overwritten, List.foldl_cons]
      exact (ih _).trans (List.length_set ..)

theorem overwrite_eq_ok {row : Row} {cells : List (Nat × Value)}
    (wide : ∀ cell ∈ cells, cell.1 < row.length) :
    overwrite row cells = .ok (overwritten row cells) := by
  induction cells generalizing row with
  | nil => rfl
  | cons cell rest ih =>
      obtain ⟨here, wide⟩ := List.forall_mem_cons.mp wide
      rw [overwrite, List.foldlM_cons]
      dsimp only
      rw [Row.put_eq_ok cell.2 here]
      exact ih fun other member => (List.length_set ..).symm ▸ wide other member

/-- A cell of a changed row was there before or has been written. -/
theorem overwritten_value (row : Row) (cells : List (Nat × Value)) (position : Nat) :
    (overwritten row cells).value position = row.value position ∨
      (position, (overwritten row cells).value position) ∈ cells := by
  induction cells generalizing row with
  | nil => exact .inl rfl
  | cons cell rest ih =>
      have next : overwritten row (cell :: rest) = overwritten (row.set cell.1 cell.2) rest := rfl
      rw [next]
      rcases ih (row.set cell.1 cell.2) with kept | written
      · rw [kept]
        rcases Row.value_set row cell.1 cell.2 position with same | ⟨rfl, new⟩
        · exact .inl same
        · rw [new]
          exact .inr List.mem_cons_self
      · exact .inr (List.mem_cons_of_mem _ written)

/-- A cell that is written the same value each time holds it in the end, and so does one that held it
    before. -/
theorem overwritten_value_eq {row : Row} {cells : List (Nat × Value)} {position : Nat} {v : Value}
    (inside : position < row.length) (same : ∀ w, (position, w) ∈ cells → w = v)
    (held : (position, v) ∈ cells ∨ row.value position = v) :
    (overwritten row cells).value position = v := by
  induction cells generalizing row with
  | nil => simpa [overwritten] using held
  | cons cell rest ih =>
      have next : overwritten row (cell :: rest) = overwritten (row.set cell.1 cell.2) rest := rfl
      rw [next]
      obtain ⟨i, w⟩ := cell
      apply ih
      · simpa using inside
      · intro w' later
        exact same w' (by simp [later])
      by_cases here : i = position
      · subst here
        right
        rw [Row.value_set_self inside]
        exact same w (by simp)
      · rw [Row.value_set_of_ne row here]
        simpa [Ne.symm here] using held

/-- A row after cells are written to those at some positions. -/
def revised (targets : List Nat) (cells : List (Nat × Value)) (e : Row × Nat) : Row :=
  if e.2 ∈ targets then overwritten e.1 cells else e.1

/-- The number of rows that satisfy a condition, and the rows of the table after assignments to
    those. -/
def revision (t : Table) (filter : Option (Condition Value))
    (assignments : SortedMap String Value) : Except Error (Nat × List Row) := do
  let targets ← t.select filter
  let cells ← assignments.toList.mapM fun (name, v) => t.writtenCell targets name v
  return (targets.length, t.rows.zipIdx.map (revised targets cells))

/-- What has to hold of a cell that is written to the rows at some positions. -/
structure Writable (t : Table) (targets : List Nat) (c : Column) (cell : Nat × Value) : Prop where
  place : (c, cell.1) ∈ t.columns.zipIdx
  stored : c.stored cell.2 = .ok cell.2
  single : c.isUnique = true → cell.2 ≠ .null → targets.length ≤ 1
  fresh : c.isUnique = true → cell.2 ≠ .null → ∀ i (below : i < t.rows.length), i ∉ targets →
    targets ≠ [] → (t.rows[i].value cell.1).sqlEq cell.2 = false

theorem collides_eq_ok {targets : List Nat} {position : Nat} {v : Value}
    (wide : ∀ row ∈ t.rows, position < row.length) :
    t.collides targets position v = .ok (decide (1 < targets.length) ||
      t.rows.zipIdx.any fun e => e.2 ∉ targets && (e.1.value position).sqlEq v) := by
  rw [collides]
  by_cases several : 1 < targets.length
  · rw [if_pos several, decide_eq_true several]
    rfl
  · rw [if_neg several, decide_eq_false several, Bool.false_or]
    -- no more than one position is looked for here, so none stands out of order
    have ascending : targets.Pairwise (· < ·) := by
      match targets, several with
      | [], _ => exact .nil
      | [i], _ => exact List.pairwise_singleton _ i
      | i :: j :: rest, several => simp at several
    refine Fallible.anyM_eq_ok_any fun e member => ?_
    by_cases target : e.2 ∈ targets
    · simp only [bisect_iff ascending, target, if_true, not_true_eq_false, decide_false,
        Bool.false_and]
      rfl
    · simp only [bisect_iff ascending, target, if_false, not_false_eq_true, decide_true,
        Bool.true_and, Row.cell_eq_ok_value (wide e.1 (List.fst_mem_of_mem_zipIdx member)), Fallible.ok_bind]
      rfl

theorem Writable.wide {targets : List Nat} {c : Column} {cell : Nat × Value}
    (writable : t.Writable targets c cell) (valid : t.Valid) :
    ∀ row ∈ t.rows, cell.1 < row.length := by
  intro row member
  rw [valid.widths row member]
  exact List.snd_lt_of_mem_zipIdx writable.place

/-- A value is written if its column exists and stores it, and it makes no two cells of a unique
    column equal. -/
theorem writtenCell_eq_ok_iff (valid : t.Valid) {targets : List Nat} {name : String} {v : Value}
    {cell : Nat × Value} : t.writtenCell targets name v = .ok cell ↔
      ∃ c, t.column name = .ok (c, cell.1) ∧ c.stored v = .ok cell.2 ∧ t.Writable targets c cell := by
  constructor
  · intro h
    obtain ⟨⟨c, p⟩, found, h⟩ := Fallible.bind_eq_ok.mp h
    obtain ⟨stored, accepted, h⟩ := Fallible.bind_eq_ok.mp h
    have place := (mem_of_column_eq_ok found).1
    have here : p < t.columns.length := List.snd_lt_of_mem_zipIdx place
    have wide : ∀ row ∈ t.rows, p < row.length := fun row member => valid.widths row member ▸ here
    dsimp only at h
    by_cases guarded : c.isUnique = true ∧ stored ≠ .null ∧ targets ≠ []
    · rw [if_pos guarded, collides_eq_ok wide, Fallible.ok_bind] at h
      split at h
      · cases h
      · rename_i free
        cases h
        obtain ⟨few, others⟩ := Bool.or_eq_false_iff.mp (Bool.eq_false_iff.mpr free)
        refine ⟨c, found, accepted, place, Column.stored_stored accepted,
          fun _ _ => by simpa using few, fun _ _ i below out _ => Bool.eq_false_iff.mpr fun same => ?_⟩
        refine Bool.eq_false_iff.mp others (List.any_eq_true.mpr ⟨(t.rows[i], i), ?_, ?_⟩)
        · exact List.mk_mem_zipIdx_iff_getElem?.mpr (List.getElem?_eq_getElem below)
        · rw [decide_eq_true out, Bool.true_and]
          exact same
    · rw [if_neg guarded] at h
      cases h
      have none : c.isUnique = true → stored ≠ .null → targets = [] := fun unique present =>
        not_not.mp fun some => guarded ⟨unique, present, some⟩
      exact ⟨c, found, accepted, place, Column.stored_stored accepted,
        fun unique present => by simp [none unique present],
        fun unique present _ _ _ some => absurd (none unique present) some⟩
  · rintro ⟨c, found, accepted, writable⟩
    obtain ⟨p, stored⟩ := cell
    simp only [writtenCell, found, accepted, Fallible.ok_bind]
    by_cases guarded : c.isUnique = true ∧ stored ≠ .null ∧ targets ≠ []
    · obtain ⟨unique, present, some⟩ := guarded
      have few : ¬1 < targets.length := Nat.not_lt.mpr (writable.single unique present)
      have others : (t.rows.zipIdx.any fun e => e.2 ∉ targets && (e.1.value p).sqlEq stored) =
          false := by
        apply List.any_eq_false.mpr
        rintro ⟨row, i⟩ member holds
        obtain ⟨below, rfl⟩ :=
          List.getElem?_eq_some_iff.mp (List.mk_mem_zipIdx_iff_getElem?.mp member)
        simp only [Bool.and_eq_true, decide_eq_true_eq] at holds
        have unequal := writable.fresh unique present i below holds.1 some
        rw [unequal] at holds
        exact Bool.false_ne_true holds.2
      rw [if_pos ⟨unique, present, some⟩, collides_eq_ok (writable.wide valid), decide_eq_false few,
        others]
      rfl
    · rw [if_neg guarded]
      rfl

theorem writable_of_writtenCell (valid : t.Valid) {targets : List Nat} {name : String} {v : Value}
    {cell : Nat × Value} (h : t.writtenCell targets name v = .ok cell) :
    ∃ c, t.Writable targets c cell := by
  obtain ⟨c, -, -, writable⟩ := (writtenCell_eq_ok_iff valid).mp h
  exact ⟨c, writable⟩

theorem writtenRows_eq_ok {targets : List Nat} {cells : List (Nat × Value)}
    (wide : ∀ cell ∈ cells, ∀ row ∈ t.rows, cell.1 < row.length) :
    t.writtenRows targets cells = .ok (t.rows.zipIdx.map (revised targets cells)) := by
  refine Fallible.mapM_eq_ok_map fun e member => ?_
  have member := List.fst_mem_of_mem_zipIdx member
  rw [revised]
  by_cases target : e.2 ∈ targets
  · simp only [target, if_true]
    exact overwrite_eq_ok fun cell written => wide cell written e.1 member
  · simp only [target, if_false]
    rfl

theorem revised_length (targets : List Nat) (cells : List (Nat × Value)) (e : Row × Nat) :
    (revised targets cells e).length = e.1.length := by
  rw [revised]
  split
  · exact overwritten_length e.1 cells
  · rfl

theorem revised_value (targets : List Nat) (cells : List (Nat × Value)) (e : Row × Nat)
    (position : Nat) :
    (revised targets cells e).value position = e.1.value position ∨
      e.2 ∈ targets ∧ (position, (revised targets cells e).value position) ∈ cells := by
  rw [revised]
  by_cases target : e.2 ∈ targets
  · rw [if_pos target]
    exact (overwritten_value e.1 cells position).imp_right fun written => ⟨target, written⟩
  · rw [if_neg target]
    exact .inl rfl

theorem eq_of_place {c c' : Column} {position : Nat} (h : (c, position) ∈ t.columns.zipIdx)
    (h' : (c', position) ∈ t.columns.zipIdx) : c = c' := by
  rw [List.mk_mem_zipIdx_iff_getElem?] at h h'
  exact Option.some.inj (h.symm.trans h')

/-- A value written to a unique column is apart from what the other rows hold afterwards. -/
theorem apart_of_written {targets : List Nat} {cells : List (Nat × Value)} {c : Column}
    {position i j : Nat} {v : Value} (unique : c.isUnique = true)
    (writable : t.Writable targets c (position, v)) (target : i ∈ targets) (other : j ≠ i)
    (below : j < t.rows.length) :
    Value.Apart v ((revised targets cells (t.rows[j], j)).value position) := by
  by_cases null : v = .null
  · exact .inl null
  · have few := writable.single unique null
    have out : j ∉ targets := by
      intro also
      match targets, few with
      | [k], _ => exact other ((List.mem_singleton.mp also).trans (List.mem_singleton.mp target).symm)
    have some : targets ≠ [] := List.ne_nil_of_mem target
    rw [revised, if_neg out]
    exact Value.Apart.symm (.inr (writable.fresh unique null j below out some))

theorem valid_revised (valid : t.Valid) {targets : List Nat} {cells : List (Nat × Value)}
    (writable : ∀ cell ∈ cells, ∃ c, t.Writable targets c cell) :
    Valid { t with rows := t.rows.zipIdx.map (revised targets cells) } := by
  have widths : ∀ e ∈ t.rows.zipIdx,
      (revised targets cells e).length = t.columns.length := fun e member =>
    (revised_length ..).trans (valid.widths e.1 (List.fst_mem_of_mem_zipIdx member))
  have place {c : Column} {p : Nat} (here : (c, p) ∈ t.columns.zipIdx) {v : Value}
      (written : (p, v) ∈ cells) : t.Writable targets c (p, v) := by
    obtain ⟨c', w⟩ := writable _ written
    rwa [eq_of_place here w.place]
  refine ⟨valid.columns, valid.names, List.forall_mem_map.mpr widths,
    List.forall_mem_map.mpr fun e member => ?_, ?_, valid.filed⟩
  · refine (stored_iff_value (widths e member)).mpr ?_
    rintro ⟨c, p⟩ here
    rcases revised_value targets cells e p with old | ⟨-, written⟩
    · dsimp only
      rw [old]
      exact valid.stored_value (List.fst_mem_of_mem_zipIdx member) (c, p) here
    · exact (place here written).stored
  · rintro ⟨c, p⟩ here unique
    have before := List.pairwise_iff_getElem.mp (valid.unique (c, p) here unique)
    rw [Table.cells, List.map_map, List.pairwise_iff_getElem]
    intro i j hi hj less
    simp only [List.length_map, List.length_zipIdx] at hi hj
    have before := before i j (by rwa [Table.cells, List.length_map])
      (by rwa [Table.cells, List.length_map]) less
    simp only [Table.cells, List.getElem_map] at before
    simp only [List.getElem_map, List.getElem_zipIdx, Nat.zero_add, Function.comp_apply]
    rcases revised_value targets cells (t.rows[i], i) p with first | ⟨target, written⟩
    · rcases revised_value targets cells (t.rows[j], j) p with second | ⟨target, written⟩
      · rw [first, second]
        exact before
      · exact (apart_of_written unique (place here written) target (Nat.ne_of_lt less) hi).symm
    · exact apart_of_written unique (place here written) target (Nat.ne_of_gt less) hj

theorem valid_revision (valid : t.Valid) {filter : Option (Condition Value)}
    {assignments : SortedMap String Value} {count : Nat} {rows : List Row}
    (h : t.revision filter assignments = .ok (count, rows)) : Valid { t with rows } := by
  obtain ⟨targets, -, h⟩ := Fallible.bind_eq_ok.mp h
  obtain ⟨cells, written, h⟩ := Fallible.bind_eq_ok.mp h
  cases h
  refine valid_revised valid fun cell member => ?_
  obtain ⟨e, -, same⟩ := Fallible.exists_of_mapM_eq_ok written cell member
  exact writable_of_writtenCell valid same

theorem revised_nil (rows : List Row) (cells : List (Nat × Value)) :
    rows.zipIdx.map (revised [] cells) = rows :=
  List.zipIdx_map_fst 0 rows

theorem revision_none {filter : Option (Condition Value)} {assignments : SortedMap String Value}
    {rows : List Row} (h : t.revision filter assignments = .ok (0, rows)) : rows = t.rows := by
  obtain ⟨targets, -, h⟩ := Fallible.bind_eq_ok.mp h
  obtain ⟨cells, -, h⟩ := Fallible.bind_eq_ok.mp h
  obtain ⟨none, rfl⟩ := Prod.mk.inj (Except.ok.inj h)
  rw [List.length_eq_zero_iff.mp none, revised_nil]

/-! ## Removed rows -/

theorem Valid.sublist {rows : List Row} (valid : t.Valid) (fewer : rows.Sublist t.rows) :
    Valid { t with rows } :=
  ⟨valid.columns, valid.names, fun row member => valid.widths row (fewer.subset member),
    fun row member => valid.stored row (fewer.subset member),
    fun e place unique => (valid.unique e place unique).sublist (fewer.map _), valid.filed⟩

/-- The number of rows that satisfy a condition, and the other rows. -/
def removal (t : Table) (filter : Option (Condition Value)) : Except Error (Nat × List Row) := do
  let targets ← t.select filter
  return (targets.length, t.remainingRows targets)

theorem valid_removal (valid : t.Valid) {filter : Option (Condition Value)} {count : Nat}
    {rows : List Row} (h : t.removal filter = .ok (count, rows)) : Valid { t with rows } := by
  obtain ⟨targets, -, h⟩ := Fallible.bind_eq_ok.mp h
  cases h
  exact valid.sublist (t.remainingRows_sublist targets)

theorem removal_none {filter : Option (Condition Value)} {rows : List Row}
    (h : t.removal filter = .ok (0, rows)) : rows = t.rows := by
  obtain ⟨targets, -, h⟩ := Fallible.bind_eq_ok.mp h
  obtain ⟨none, rfl⟩ := Prod.mk.inj (Except.ok.inj h)
  rw [List.length_eq_zero_iff.mp none, remainingRows_nil]

end Table

end Tabular
