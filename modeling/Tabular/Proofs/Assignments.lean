import Mathlib.Data.List.Pairwise
import Tabular.Proofs.Selection

/-! # What assignments write

Assignments put the stored form of each value into the rows that satisfy the condition, or do nothing
at all. Whether they can is decided on the rows as they were, before any is written, and comes down
to the rows as they would be: no two of these may be equal in a unique column.
-/

namespace Tabular

/-- An integer is near to a number. -/
theorem Binary64.isNaN_ofInt64 (i : Int64) : (ofInt64 i).isNaN = false := by
  have below : nearestBits i.toInt.natAbs 1 ≤ infinityBits := Nat.min_le_right ..
  simp only [ofInt64, ofQuotient, isNaN, magnitudeBits, UInt64.toNat_ofNat', infinityBits,
    fractionSize, signSize, Nat.pow_eq] at below ⊢
  split <;> simp <;> omega

namespace Column

variable {c : Column} {assignments : SortedMap String Value} {v w : Value}

/-- What is stored for a value is a number if the value is. -/
theorem isNaN_stored (h : c.stored v = .ok w) : w.isNaN = v.isNaN := by
  unfold stored at h
  split at h
  · split at h <;> cases h
    rfl
  · cases h
    exact Binary64.isNaN_ofInt64 _
  · split at h <;> cases h
    rfl

/-- The cell of a column after assignments: the stored form of the value that the column is
    assigned, if it is assigned one that it accepts. -/
def assigned (c : Column) (assignments : SortedMap String Value) (old : Value) : Value :=
  match c.stored <$> assignments.get? c.name with
  | some (.ok w) => w
  | _ => old

theorem assigned_of_stored (given : assignments.get? c.name = some v) (accepted : c.stored v = .ok w)
    (old : Value) : c.assigned assignments old = w := by
  simp [assigned, given, accepted]

theorem assigned_of_none (kept : assignments.get? c.name = none) (old : Value) :
    c.assigned assignments old = old := by
  simp [assigned, kept]

/-- Assignments fill all cells of a column alike or leave them all. -/
theorem assigned_cases (c : Column) (assignments : SortedMap String Value) :
    (∃ w, ∀ old, c.assigned assignments old = w) ∨ ∀ old, c.assigned assignments old = old := by
  unfold assigned
  split
  · exact .inl ⟨_, fun _ => rfl⟩
  · exact .inr fun _ => rfl

end Column

namespace Table

variable {t : Table} {filter : Option (Condition Value)} {assignments : SortedMap String Value}

/-- A row after assignments to it. -/
def assigned (t : Table) (assignments : SortedMap String Value) (row : Row) : Row :=
  t.columns.zipWith (fun c old => c.assigned assignments old) row

/-- A row after assignments to those that satisfy a condition. -/
def rewrite (t : Table) (filter : Option (Condition Value)) (assignments : SortedMap String Value)
    (row : Row) : Row :=
  if t.satisfies filter row then t.assigned assignments row else row

/-- The rows of a table after assignments to those that satisfy a condition. -/
def rewritten (t : Table) (filter : Option (Condition Value))
    (assignments : SortedMap String Value) : List Row :=
  t.rows.map (t.rewrite filter assignments)

theorem rewrite_of_satisfies {row : Row} (holds : t.satisfies filter row = true) :
    t.rewrite filter assignments row = t.assigned assignments row := if_pos holds

theorem rewrite_of_not_satisfies {row : Row} (fails : t.satisfies filter row = false) :
    t.rewrite filter assignments row = row := if_neg (Bool.eq_false_iff.mp fails)

theorem length_assigned {row : Row} (wide : row.length = t.columns.length) :
    (t.assigned assignments row).length = row.length := by
  simp [assigned, wide]

theorem value_assigned {row : Row} (wide : row.length = t.columns.length) {c : Column} {p : Nat}
    (place : (c, p) ∈ t.columns.zipIdx) :
    (t.assigned assignments row).value p = c.assigned assignments (row.value p) := by
  obtain ⟨below, rfl⟩ := List.getElem?_eq_some_iff.mp (List.mk_mem_zipIdx_iff_getElem?.mp place)
  have inside : p < row.length := by omega
  rw [Row.value_eq_getElem inside, Row.value_eq_getElem (by rwa [length_assigned wide])]
  simp [assigned]

/-- A row is made up by the cells of the columns. -/
theorem row_ext {row row' : Row} (wide : row.length = t.columns.length)
    (wide' : row'.length = t.columns.length)
    (same : ∀ c p, (c, p) ∈ t.columns.zipIdx → row.value p = row'.value p) : row = row' := by
  apply List.ext_getElem (wide.trans wide'.symm)
  intro p below below'
  have place : (t.columns[p], p) ∈ t.columns.zipIdx :=
    List.mk_mem_zipIdx_iff_getElem?.mpr (List.getElem?_eq_getElem _)
  rw [← Row.value_eq_getElem below, ← Row.value_eq_getElem below']
  exact same _ p place

theorem column_of_place (names : t.columnNames.Nodup) {c : Column} {p : Nat}
    (place : (c, p) ∈ t.columns.zipIdx) : t.column c.name = .ok (c, p) := by
  have known : c.name ∈ t.columnNames := List.mem_map_of_mem (List.fst_mem_of_mem_zipIdx place)
  obtain ⟨c', found⟩ := column_of_mem known
  rw [position_of_place names place] at found
  rw [found, eq_of_place place (mem_of_column_eq_ok found).1]

/-! ## The cells that are written -/

/-- The written cells of a row are those of the assigned columns. -/
theorem overwritten_eq_assigned (valid : t.Valid) {targets : List Nat} {cells : List (Nat × Value)}
    (written : (assignments.toList.mapM fun e => t.writtenCell targets e.1 e.2) = .ok cells)
    {row : Row} (member : row ∈ t.rows) : overwritten row cells = t.assigned assignments row := by
  have wide := valid.widths row member
  refine row_ext ((overwritten_length row cells).trans wide) ((length_assigned wide).trans wide) ?_
  intro c p place
  rw [value_assigned wide place]
  have inside : p < row.length := wide ▸ List.snd_lt_of_mem_zipIdx place
  apply overwritten_value_eq inside
  · intro w cell
    obtain ⟨e, given, same⟩ := Fallible.exists_of_mapM_eq_ok written _ cell
    obtain ⟨c', found, accepted, -⟩ := (writtenCell_eq_ok_iff valid).mp same
    obtain ⟨place', named⟩ := mem_of_column_eq_ok found
    have column : c' = c := eq_of_place place' place
    subst column
    have given : assignments.get? c'.name = some e.2 :=
      SortedMap.mem_toList_iff.mp (by rwa [named])
    exact (Column.assigned_of_stored given accepted _).symm
  · cases given : assignments.get? c.name with
    | none => exact .inr (Column.assigned_of_none given _).symm
    | some v =>
        have listed := SortedMap.mem_toList_iff.mpr given
        obtain ⟨cell, kept, same⟩ := Fallible.mem_of_mapM_eq_ok written _ listed
        obtain ⟨c', found, accepted, -⟩ := (writtenCell_eq_ok_iff valid).mp same
        rw [column_of_place valid.names place] at found
        obtain ⟨rfl, rfl⟩ := Prod.mk.inj (Except.ok.inj found)
        left
        rw [Column.assigned_of_stored given accepted]
        exact kept

theorem revised_eq_rewritten (valid : t.Valid) {cells : List (Nat × Value)}
    (written : (assignments.toList.mapM fun e => t.writtenCell (t.chosen filter) e.1 e.2) =
      .ok cells) :
    t.rows.zipIdx.map (revised (t.chosen filter) cells) = t.rewritten filter assignments := by
  have each : ∀ e ∈ t.rows.zipIdx,
      revised (t.chosen filter) cells e = t.rewrite filter assignments e.1 := by
    intro e member
    rw [revised, overwritten_eq_assigned valid written (List.fst_mem_of_mem_zipIdx member), rewrite]
    simp only [mem_chosen_of_mem member]
  rw [List.map_congr_left each, rewritten]
  conv_rhs => rw [← List.zipIdx_map_fst 0 t.rows, List.map_map]
  rfl

/-- Assignments are carried out if the condition and every single one of them can be. -/
theorem revision_eq_ok_iff (valid : t.Valid) {count : Nat} {rows : List Row} :
    t.revision filter assignments = .ok (count, rows) ↔
      t.checkFilter filter = .ok () ∧
      (∀ e ∈ assignments.toList, ∃ cell, t.writtenCell (t.chosen filter) e.1 e.2 = .ok cell) ∧
      count = (t.rows.filter (t.satisfies filter)).length ∧
      rows = t.rewritten filter assignments := by
  rw [revision, select_eq_chosen valid, ← Fallible.exists_mapM_eq_ok_iff]
  cases t.checkFilter filter with
  | error e => simp
  | ok u =>
      simp only [Fallible.map_ok, Fallible.ok_bind, true_and]
      constructor
      · intro h
        obtain ⟨cells, written, h⟩ := Fallible.bind_eq_ok.mp h
        cases h
        exact ⟨⟨cells, written⟩, t.length_chosen filter, revised_eq_rewritten valid written⟩
      · rintro ⟨⟨cells, written⟩, rfl, rfl⟩
        rw [written, Fallible.ok_bind, revised_eq_rewritten valid written, length_chosen]
        rfl

/-! ## Which assignments are carried out -/

/-- What assignments to the rows that satisfy a condition require. -/
structure Admits (t : Table) (filter : Option (Condition Value))
    (assignments : SortedMap String Value) : Prop where
  filtered : ∀ condition ∈ filter, condition.column ∈ t.columnNames
  /-- Also where there is no row to be changed. -/
  accepted : ∀ name v, assignments.get? name = some v →
    ∃ c ∈ t.columns, c.name = name ∧ ∃ w, c.stored v = .ok w
  /-- The rows that come about hold no value twice in a unique column. -/
  distinct : ∀ c p, (c, p) ∈ t.columns.zipIdx → c.isUnique = true →
    ((t.rewritten filter assignments).map (Row.value · p)).Pairwise Value.Apart

theorem admits_of_revision (valid : t.Valid) {count : Nat} {rows : List Row}
    (h : t.revision filter assignments = .ok (count, rows)) : t.Admits filter assignments := by
  obtain ⟨known, cells, -, rfl⟩ := (revision_eq_ok_iff valid).mp h
  refine ⟨checkFilter_eq_ok_iff.mp known, fun name v given => ?_, fun c p place unique => ?_⟩
  · obtain ⟨cell, written⟩ := cells _ (SortedMap.mem_toList_iff.mpr given)
    obtain ⟨c, found, accepted, -⟩ := (writtenCell_eq_ok_iff valid).mp written
    obtain ⟨place, named⟩ := mem_of_column_eq_ok found
    exact ⟨c, List.fst_mem_of_mem_zipIdx place, named, cell.2, accepted⟩
  · exact (valid_revision valid h).unique (c, p) place unique

theorem Admits.apart (admits : t.Admits filter assignments) {c : Column} {p : Nat}
    (place : (c, p) ∈ t.columns.zipIdx) (unique : c.isUnique = true) :
    t.rows.Pairwise fun a b => Value.Apart ((t.rewrite filter assignments a).value p)
      ((t.rewrite filter assignments b).value p) := by
  have distinct := admits.distinct c p place unique
  rw [rewritten, List.map_map, List.pairwise_map] at distinct
  exact distinct

/-- The test for collisions passes where the rows that come about are as required. It does not for
    what is no number, which is refused although it equals nothing. -/
theorem Admits.writable (valid : t.Valid) (admits : t.Admits filter assignments) {c : Column}
    {p : Nat} (place : (c, p) ∈ t.columns.zipIdx) {v w : Value}
    (given : assignments.get? c.name = some v) (accepted : c.stored v = .ok w)
    (number : w.isNaN = false) : t.Writable (t.chosen filter) c (p, w) := by
  have held : ∀ row ∈ t.rows, t.satisfies filter row = true →
      (t.rewrite filter assignments row).value p = w := by
    intro row member holds
    rw [rewrite_of_satisfies holds, value_assigned (valid.widths row member) place]
    exact Column.assigned_of_stored given accepted _
  refine ⟨place, Column.stored_stored accepted, fun unique present => ?_,
    fun unique present i below out some => ?_⟩
  · rw [length_chosen]
    refine length_le_one_of_pairwise ((admits.apart place unique).sublist List.filter_sublist) ?_
    intro a first b second apart
    obtain ⟨first, chosen⟩ := List.mem_filter.mp first
    obtain ⟨second, chosen'⟩ := List.mem_filter.mp second
    rw [held a first chosen, held b second chosen', Value.apart_iff_sqlEq present,
      Value.sqlEq_self number] at apart
    cases apart
  · obtain ⟨j, target⟩ := List.exists_mem_of_ne_nil _ some
    obtain ⟨other, here, chosen⟩ := Row.mem_passing.mp target
    have unchosen := not_satisfies_of_not_chosen below out
    have differ : t.rows[i] ≠ other := by
      intro same
      rw [same, chosen] at unchosen
      cases unchosen
    have member := List.mem_of_getElem? here
    have symmetric : Std.Symm fun a b => Value.Apart ((t.rewrite filter assignments a).value p)
        ((t.rewrite filter assignments b).value p) := ⟨fun _ _ => Value.Apart.symm⟩
    have apart := (admits.apart place unique).forall (List.getElem_mem below) member differ
    rw [rewrite_of_not_satisfies unchosen, held other member chosen] at apart
    exact (Value.apart_iff_sqlEq present).mp apart

theorem Admits.revision_eq_ok (valid : t.Valid) (admits : t.Admits filter assignments)
    (numbers : ∀ name v, assignments.get? name = some v → v.isNaN = false) :
    t.revision filter assignments =
      .ok ((t.rows.filter (t.satisfies filter)).length, t.rewritten filter assignments) := by
  refine (revision_eq_ok_iff valid).mpr
    ⟨checkFilter_eq_ok_iff.mpr admits.filtered, fun e listed => ?_, rfl, rfl⟩
  have given := SortedMap.mem_toList_iff.mp listed
  obtain ⟨c, column, named, w, accepted⟩ := admits.accepted e.1 e.2 given
  obtain ⟨p, place⟩ := exists_place column
  have number := (Column.isNaN_stored accepted).trans (numbers e.1 e.2 given)
  rw [← named] at given ⊢
  exact ⟨(p, w), (writtenCell_eq_ok_iff valid).mpr ⟨c, column_of_place valid.names place, accepted,
    admits.writable valid place given accepted number⟩⟩

theorem update_eq_ok_iff (sound : t.Sound) {count : Nat} {t' : Table} :
    update filter assignments t = .ok count t' ↔
      ∃ rows, t.revision filter assignments = .ok (count, rows) ∧ t' = t.withRows rows := by
  rw [update_apply sound]
  constructor
  · intro updated
    split at updated <;> cases updated
    exact ⟨_, ‹_›, rfl⟩
  · rintro ⟨rows, revised, rfl⟩
    rw [revised]

/-- Assignments write the stored forms of their values to the cells of the assigned columns in the
    rows that satisfy the condition, and nothing else, or they leave the table as it is. Unless what
    is no number is assigned, they fail only for what they require. -/
theorem update_exact (checked : t.check = .ok ()) (indexed : t.WellIndexed)
    (filter : Option (Condition Value)) (assignments : SortedMap String Value) :
    (∀ count t', update filter assignments t = .ok count t' →
      count = (t.rows.filter (t.satisfies filter)).length ∧
      t'.rows = t.rewritten filter assignments ∧
      t.Admits filter assignments ∧
      t'.name = t.name ∧ t'.columns = t.columns ∧
      t'.indexNames = t.indexNames ∧ t'.WellIndexed) ∧
    (∀ e t', update filter assignments t = .error e t' → t' = t) ∧
    ((∀ name v, assignments.get? name = some v → v.isNaN = false) →
      ((∃ count t', update filter assignments t = .ok count t') ↔ t.Admits filter assignments)) := by
  have sound : t.Sound := sound_iff.mpr ⟨checked, indexed⟩
  have valid := sound.toValid
  refine ⟨fun count t' updated => ?_, fun e t' failed => ?_, fun numbers => ⟨?_, fun admits => ?_⟩⟩
  · obtain ⟨rows, revised, rfl⟩ := (update_eq_ok_iff sound).mp updated
    have admits := admits_of_revision valid revised
    obtain ⟨-, -, counted, rewritten⟩ := (revision_eq_ok_iff valid).mp revised
    have sound' := sound_withRows (valid_revision valid revised)
    exact ⟨counted, rewritten, admits, rfl, rfl, t.indexNames_withRows rows,
      (sound_iff.mp sound').2⟩
  · rw [update_apply sound] at failed
    split at failed <;> cases failed
    rfl
  · rintro ⟨count, t', updated⟩
    obtain ⟨rows, revised, -⟩ := (update_eq_ok_iff sound).mp updated
    exact admits_of_revision valid revised
  · have revised := admits.revision_eq_ok valid numbers
    exact ⟨_, _, (update_eq_ok_iff sound).mpr ⟨_, revised, rfl⟩⟩

/-- The integer is compared with floats and stored as one, and what is no number stays unequal. -/
theorem integer_assigned_exactly :
    let bare : Table := ⟨"t", [⟨"a", .integer, true, false, true⟩, ⟨"b", .float, false, true, true⟩],
      [[.integer 1, .float (.ofInt64 1)], [.integer 2, .null],
        [.integer 3, .float ⟨0x7ff8000000000000⟩]],
      (∅ : SortedMap String Index).insert "b" ⟨"i", "b", ∅⟩⟩
    let t := bare.withRows bare.rows
    let assignments := (∅ : SortedMap String Value).insert "b" (.integer 3)
    t.Admits (some ⟨"b", .integer 1⟩) assignments ∧
    ∃ t', update (some ⟨"b", .integer 1⟩) assignments t = .ok 1 t' ∧ t'.WellIndexed ∧
      t'.rows = [[.integer 1, .float (.ofInt64 3)], [.integer 2, .null],
        [.integer 3, .float ⟨0x7ff8000000000000⟩]] := by
  intro bare t assignments
  have valid : bare.Valid := check_eq_ok_iff.mp (by decide +kernel)
  obtain ⟨checked, indexed⟩ := sound_iff.mp valid.sound
  obtain ⟨done, -, admitted⟩ := update_exact checked indexed (some ⟨"b", .integer 1⟩) assignments
  have result : Action.result (update (some ⟨"b", .integer 1⟩) assignments) t = .ok 1 := by
    decide +kernel
  have updated := Action.eq_ok_of_result result
  have numbers : ∀ name v, assignments.get? name = some v → v.isNaN = false := by
    intro name v given
    have listed := SortedMap.mem_toList_iff.mpr given
    have entries : assignments.toList = [("b", .integer 3)] := rfl
    rw [entries] at listed
    simp_all [Value.isNaN]
  obtain ⟨-, rows, -, -, -, -, indexed'⟩ := done _ _ updated
  refine ⟨(admitted numbers).mp ⟨_, _, updated⟩, _, updated, indexed', ?_⟩
  exact rows.trans (by decide +kernel)

/-! ## Assignments carried out twice -/

theorem assigned_assigned {row : Row} (wide : row.length = t.columns.length) :
    t.assigned assignments (t.assigned assignments row) = t.assigned assignments row := by
  have wide' : (t.assigned assignments row).length = t.columns.length :=
    (length_assigned wide).trans wide
  refine row_ext ((length_assigned wide').trans wide') wide' ?_
  intro c p place
  rw [value_assigned wide' place, value_assigned wide place]
  rcases c.assigned_cases assignments with ⟨w, filled⟩ | kept
  · rw [filled, filled]
  · rw [kept]

/-- Afterwards the condition holds of all rows that are changed, or of none: its column is left as it
    was in all of them or holds the same in all of them. -/
theorem satisfies_assigned (known : t.checkFilter filter = .ok ())
    (assignments : SortedMap String Value) :
    ∃ still : Bool, ∀ row, row.length = t.columns.length → t.satisfies filter row = true →
      t.satisfies filter (t.assigned assignments row) = still := by
  cases filter with
  | none => exact ⟨true, fun row wide holds => rfl⟩
  | some condition =>
      have member := checkFilter_eq_ok_iff.mp known condition rfl
      obtain ⟨c, found⟩ := column_of_mem member
      have place := (mem_of_column_eq_ok found).1
      have test (row : Row) : t.satisfies (some condition) row =
          (row.value (t.position condition.column)).sqlEq condition.value := rfl
      rcases c.assigned_cases assignments with ⟨w, filled⟩ | kept
      · refine ⟨w.sqlEq condition.value, fun row wide holds => ?_⟩
        rw [test, value_assigned wide place, filled]
      · refine ⟨true, fun row wide holds => ?_⟩
        rw [test, value_assigned wide place, kept]
        exact holds

/-- What assignments leave behind they leave as it is. -/
theorem rewrite_rewrite {row : Row} (wide : row.length = t.columns.length) :
    t.rewrite filter assignments (t.rewrite filter assignments row) =
      t.rewrite filter assignments row := by
  cases holds : t.satisfies filter row with
  | false => rw [rewrite_of_not_satisfies holds, rewrite_of_not_satisfies holds]
  | true =>
      rw [rewrite_of_satisfies holds]
      cases again : t.satisfies filter (t.assigned assignments row) with
      | false => exact rewrite_of_not_satisfies again
      | true => rw [rewrite_of_satisfies again, assigned_assigned wide]

theorem rewritten_rewritten (valid : t.Valid) :
    (t.withRows (t.rewritten filter assignments)).rewritten filter assignments =
      t.rewritten filter assignments := by
  have again : (t.withRows (t.rewritten filter assignments)).rewritten filter assignments =
      (t.rewritten filter assignments).map (t.rewrite filter assignments) := rfl
  rw [again, rewritten, List.map_map]
  apply List.map_congr_left
  intro row member
  exact rewrite_rewrite (valid.widths row member)

theorem chosen_rewritten (valid : t.Valid) (known : t.checkFilter filter = .ok ())
    (assignments : SortedMap String Value) :
    (t.withRows (t.rewritten filter assignments)).chosen filter = [] ∨
      (t.withRows (t.rewritten filter assignments)).chosen filter = t.chosen filter := by
  have again : (t.withRows (t.rewritten filter assignments)).chosen filter =
      Row.passing (fun row => t.satisfies filter (t.rewrite filter assignments row)) t.rows :=
    Row.passing_map ..
  obtain ⟨still, changed⟩ := satisfies_assigned known assignments
  have each : ∀ row ∈ t.rows, t.satisfies filter (t.rewrite filter assignments row) =
      (still && t.satisfies filter row) := by
    intro row member
    cases holds : t.satisfies filter row with
    | false => rw [rewrite_of_not_satisfies holds, holds, Bool.and_false]
    | true =>
        rw [rewrite_of_satisfies holds, changed row (valid.widths row member) holds,
          Bool.and_true]
  rw [again, Row.passing_congr each]
  cases still with
  | false => simp [Row.passing]
  | true => simp [chosen]

/-- A cell that has been written can be written again. -/
theorem Writable.again {targets : List Nat} {c : Column} {cell : Nat × Value}
    (writable : t.Writable (t.chosen filter) c cell) (fewer : targets = [] ∨ targets = t.chosen filter) :
    (t.withRows (t.rewritten filter assignments)).Writable targets c cell := by
  refine ⟨writable.place, writable.stored, fun unique present => ?_,
    fun unique present i below out some => ?_⟩
  · rcases fewer with rfl | rfl
    · simp
    · exact writable.single unique present
  · rcases fewer with rfl | rfl
    · exact absurd rfl some
    · have inside : i < t.rows.length := by simpa [withRows, rewritten] using below
      have fails := not_satisfies_of_not_chosen inside out
      have kept : (t.withRows (t.rewritten filter assignments)).rows[i] = t.rows[i] := by
        simp [withRows, rewritten, rewrite_of_not_satisfies fails]
      rw [kept]
      exact writable.fresh unique present i inside out some

theorem revision_rewritten (valid : t.Valid) {count : Nat} {rows : List Row}
    (h : t.revision filter assignments = .ok (count, rows)) :
    ∃ again, (t.withRows rows).revision filter assignments = .ok (again, rows) ∧
      (again = 0 ∨ again = count) := by
  have valid' := (sound_withRows (valid_revision valid h)).toValid
  obtain ⟨known, cells, rfl, rfl⟩ := (revision_eq_ok_iff valid).mp h
  have chosen := chosen_rewritten valid known assignments
  refine ⟨((t.withRows (t.rewritten filter assignments)).chosen filter).length,
    (revision_eq_ok_iff valid').mpr ⟨known, fun e listed => ?_, length_chosen .., ?_⟩, ?_⟩
  · obtain ⟨cell, written⟩ := cells e listed
    obtain ⟨c, found, accepted, writable⟩ := (writtenCell_eq_ok_iff valid).mp written
    exact ⟨cell, (writtenCell_eq_ok_iff valid').mpr ⟨c, found, accepted, writable.again chosen⟩⟩
  · exact (rewritten_rewritten valid).symm
  · rw [← length_chosen]
    rcases chosen with none | same
    · exact .inl (by rw [none, List.length_nil])
    · exact .inr (by rw [same])

/-- Assignments that have been carried out can be carried out again, and change nothing then. They
    concern the same rows as before, or none if these do not satisfy the condition any more. -/
theorem update_idempotent (checked : t.check = .ok ()) (indexed : t.WellIndexed) {count : Nat}
    {t' : Table} (h : update filter assignments t = .ok count t') :
    ∃ again, update filter assignments t' = .ok again t' ∧ (again = 0 ∨ again = count) := by
  have sound : t.Sound := sound_iff.mpr ⟨checked, indexed⟩
  obtain ⟨rows, revised, rfl⟩ := (update_eq_ok_iff sound).mp h
  have sound' := sound_withRows (valid_revision sound.toValid revised)
  obtain ⟨again, revised', counts⟩ := revision_rewritten sound.toValid revised
  have fixed := (t.withRows_withRows rows rows).symm
  exact ⟨again, (update_eq_ok_iff sound').mpr ⟨rows, revised', fixed⟩, counts⟩

theorem unmatched_when_repeated :
    let bare : Table := ⟨"t", [⟨"a", .integer, true, false, true⟩, ⟨"b", .float, false, true, true⟩],
      [[.integer 1, .float (.ofInt64 1)], [.integer 2, .null]],
      (∅ : SortedMap String Index).insert "b" ⟨"i", "b", ∅⟩⟩
    let t := bare.withRows bare.rows
    let assign : Action Table Nat :=
      update (some ⟨"b", .integer 1⟩) ((∅ : SortedMap String Value).insert "b" (.integer 3))
    ∃ t', assign t = .ok 1 t' ∧ assign t' = .ok 0 t' := by
  intro bare t assign
  have valid : bare.Valid := check_eq_ok_iff.mp (by decide +kernel)
  obtain ⟨checked, indexed⟩ := sound_iff.mp valid.sound
  have result : assign.result t = .ok 1 := by decide +kernel
  have later : assign.result (assign.after t) = .ok 0 := by decide +kernel
  have updated := Action.eq_ok_of_result result
  obtain ⟨again, repeated, -⟩ := update_idempotent checked indexed updated
  obtain ⟨rfl, -⟩ := EStateM.Result.ok.inj (repeated.symm.trans (Action.eq_ok_of_result later))
  exact ⟨_, updated, repeated⟩

end Table

end Tabular
