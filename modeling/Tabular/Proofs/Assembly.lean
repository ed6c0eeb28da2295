import Mathlib.Data.List.Basic
import Tabular.Proofs.Reachability

/-! # Rows from named values

Values that are listed by the names of their columns make up one row of the table, in whatever order
they are listed. To add them is to add that row. It fails before the table is touched if there is
not one value for each name, or if a name is none of the table's.
-/

namespace Tabular

/-- Among entries of different names a name is looked up to what stands beside it. -/
theorem lookup_eq_some_iff_mem {entries : List (String × Value)}
    (different : (entries.map (·.1)).Nodup) {name : String} {v : Value} :
    entries.lookup name = some v ↔ (name, v) ∈ entries := by
  induction entries with
  | nil => simp
  | cons head rest ih =>
      obtain ⟨other, w⟩ := head
      obtain ⟨new, different⟩ := List.nodup_cons.mp different
      by_cases same : name = other
      · subst same
        have absent : (name, v) ∉ rest := fun later =>
          new (List.mem_map.mpr ⟨(name, v), later, rfl⟩)
        simp [absent, eq_comm]
      · have apart : (name == other) = false := by simpa using same
        simp [List.lookup_cons, apart, same, ih different]

theorem lookup_of_perm {entries others : List (String × Value)}
    (different : (entries.map (·.1)).Nodup) (perm : others.Perm entries) (name : String) :
    others.lookup name = entries.lookup name := by
  have different' : (others.map (·.1)).Nodup := (perm.map (·.1)).nodup_iff.mpr different
  apply Option.ext
  intro v
  simp only [lookup_eq_some_iff_mem different, lookup_eq_some_iff_mem different', perm.mem_iff]

namespace Table

variable {t : Table} {columns columns' : List String} {values values' : List Value}

/-- The row that holds in each column of a table the value listed for it, or null if there is none. -/
def listed (t : Table) (columns : List String) (values : List Value) : Row :=
  t.columnNames.map fun name => ((columns.zip values).lookup name).getD .null

theorem nodup_zip (distinct : columns.Nodup) (even : columns.length = values.length) :
    ((columns.zip values).map (·.1)).Nodup := by
  rwa [List.map_fst_zip (Nat.le_of_eq even)]

theorem listed_of_perm (distinct : columns.Nodup) (even : columns.length = values.length)
    (perm : (columns'.zip values').Perm (columns.zip values)) :
    t.listed columns' values' = t.listed columns values := by
  simp only [listed, lookup_of_perm (nodup_zip distinct even) perm]

theorem givenValue_eq (distinct : columns.Nodup) (even : columns.length = values.length)
    (name : String) :
    givenValue columns values name = ((columns.zip values).lookup name).getD .null := by
  rw [givenValue, lookup_of_perm (nodup_zip distinct even) (List.reverse_perm _)]

theorem assignCells_eq {seen names : List String} (distinct : names.Nodup)
    (fresh : ∀ name ∈ names, name ∉ seen) :
    assignCells columns values seen names = names.map (givenValue columns values) := by
  induction names generalizing seen with
  | nil => rfl
  | cons name rest ih =>
      obtain ⟨once, distinct⟩ := List.nodup_cons.mp distinct
      obtain ⟨here, fresh⟩ := List.forall_mem_cons.mp fresh
      have later : ∀ other ∈ rest, other ∉ name :: seen := by
        intro other member again
        rcases List.mem_cons.mp again with rfl | earlier
        · exact once member
        · exact fresh other member earlier
      simp only [assignCells, here, if_false, ih distinct later, List.map_cons]

/-- Names are looked for in the order in which they are listed. -/
theorem forM_columnPosition (t : Table) (columns : List String) :
    (columns.forM fun name => discard (t.columnPosition name)) =
      match columns.find? (· ∉ t.columnNames) with
      | some name => .error (.columnNotFound name)
      | none => .ok ⟨⟩ := by
  induction columns with
  | nil => rfl
  | cons name rest ih =>
      rw [List.forM_eq_forM] at ih ⊢
      rw [List.forM_cons]
      by_cases known : name ∈ t.columnNames
      · have found : discard (t.columnPosition name) = .ok ⟨⟩ := by
          rw [columnPosition_of_mem known]
          rfl
        rw [found, Fallible.ok_bind, ih, List.find?_cons_of_neg (by simpa using known)]
      · rw [columnPosition_of_not_mem known, List.find?_cons_of_pos (by simpa using known)]
        rfl

theorem assembleRow_eq (t : Table) (columns : List String) (values : List Value) :
    t.assembleRow columns values =
      if columns.length ≠ values.length then .error (.wrongArity columns.length values.length)
      else match columns.find? (· ∉ t.columnNames) with
        | some name => .error (.columnNotFound name)
        | none => .ok (assignCells columns values [] t.columnNames) := by
  rw [assembleRow, forM_columnPosition]
  by_cases even : columns.length = values.length
  · simp only [even, ne_eq, not_true_eq_false, if_false]
    cases columns.find? (· ∉ t.columnNames) <;> rfl
  · simp only [even, ne_eq, not_false_eq_true, if_true]
    rfl

/-- Values for different columns of a table make up the row that is listed. -/
theorem assembleRow_eq_listed (names : t.columnNames.Nodup) (distinct : columns.Nodup)
    (known : columns ⊆ t.columnNames) (even : columns.length = values.length) :
    t.assembleRow columns values = .ok (t.listed columns values) := by
  have all : columns.find? (· ∉ t.columnNames) = none := by
    simpa using fun name (member : name ∈ columns) => known member
  have cells : assignCells columns values [] t.columnNames = t.listed columns values := by
    rw [assignCells_eq names fun _ _ => List.not_mem_nil, listed]
    exact List.map_congr_left fun name _ => givenValue_eq distinct even name
  rw [assembleRow_eq, if_neg (not_not.mpr even), all, cells]

theorem given_of_ne_nil (nonempty : columns ≠ []) (values : List Value) :
    t.given columns values = t.assembleRow columns values := if_neg nonempty

theorem insertion_eq_ok_iff {row : Row} {rows : List Row} : t.insertion row = .ok rows ↔
    ∃ stored, t.storedRow row = .ok stored ∧ t.checkNew stored = .ok ⟨⟩ ∧
      rows = t.rows ++ [stored] := by
  simp only [insertion, Fallible.bind_eq_ok]
  constructor
  · rintro ⟨stored, accepted, ⟨⟩, fresh, same⟩
    cases same
    exact ⟨stored, accepted, fresh, rfl⟩
  · rintro ⟨stored, accepted, fresh, rfl⟩
    exact ⟨stored, accepted, ⟨⟩, fresh, rfl⟩

/-- What a row is stored as is the stored form of each of its cells. -/
theorem forall₂_stored {row stored : Row} (h : t.storedRow row = .ok stored) :
    List.Forall₂ (fun cell w => cell.1.stored cell.2 = .ok w) (t.columns.zip row) stored := by
  rw [storedRow] at h
  split at h
  · cases h
  · exact Fallible.mapM_eq_ok_iff.mp h

end Table

namespace Database

variable {σ : Type} [Store σ] {db : Database σ} {name : String} {t : Table}

theorem execute_insert (sound : db.catalog.Sound) (found : db.table? name = some t)
    (columns : List String) (values : List Value) :
    (Plan.insert name columns values).execute db =
      match t.given columns values >>= t.insertion with
      | .ok rows => (Effect.changed .rowInserted (t.withRows rows)).perform db
      | .error e => .error e db := by
  have known : db.catalog.table name = .ok t := Catalog.table_of_get? found
  have statement : (Plan.insert name columns values).IsStatement := trivial
  rw [Plan.execute_eq statement sound, Plan.effect, known, Fallible.ok_bind]
  cases t.given columns values >>= t.insertion <;> rfl

theorem execute_insert_of_error (sound : db.catalog.Sound) (found : db.table? name = some t)
    {columns : List String} {values : List Value} {e : Error}
    (refused : t.given columns values = .error e) :
    (Plan.insert name columns values).execute db = .error e db := by
  rw [execute_insert sound found, refused, Fallible.error_bind]

/-- Rows that are given alike are added alike. -/
theorem execute_insert_congr (sound : db.catalog.Sound) (found : db.table? name = some t)
    {columns columns' : List String} {values values' : List Value}
    (same : t.given columns values = t.given columns' values') :
    (Plan.insert name columns values).execute db =
      (Plan.insert name columns' values').execute db := by
  rw [execute_insert sound found, execute_insert sound found, same]

/-- A row that has been added stands in its stored form behind the others. -/
theorem inserted_of_execute [LawfulStore σ] (sound : db.catalog.Sound) (found : db.table? name = some t)
    {columns : List String} {values : List Value} {row : Row}
    (given : t.given columns values = .ok row) {outcome : Outcome} {db' : Database σ}
    (h : (Plan.insert name columns values).execute db = .ok outcome db') :
    outcome = .rowInserted ∧ ∃ t' stored, db'.table? name = some t' ∧
      t'.rows = t.rows ++ [stored] ∧
      List.Forall₂ (fun cell w => cell.1.stored cell.2 = .ok w) (t.columns.zip row) stored := by
  have named : t.name = name := sound.filed name t found
  rw [execute_insert sound found, given, Fallible.ok_bind] at h
  cases added : t.insertion row with
  | error e =>
      rw [added] at h
      cases h
  | ok rows =>
      simp only [added, Effect.perform_changed] at h
      split at h
      · cases h
      · cases h
        obtain ⟨stored, accepted, -, rfl⟩ := Table.insertion_eq_ok_iff.mp added
        refine ⟨rfl, t.withRows (t.rows ++ [stored]), stored, ?_, rfl,
          Table.forall₂_stored accepted⟩
        subst named
        exact Catalog.get?_put_self ..

/-- Values for some columns are added as the row that they make up, in whatever order they are listed.
    One row comes behind the others, in stored form. If there is not one value for each name, or if
    the table lacks a column, nothing happens, and the error tells the numbers or the first such
    name. -/
theorem named_values_inserted [LawfulStore σ] (h : db.Reachable) (found : db.table? name = some t)
    {columns : List String} (nonempty : columns ≠ []) (values : List Value) :
    (columns.Nodup → columns ⊆ t.columnNames → columns.length = values.length →
      (Plan.insert name columns values).execute db =
        (Plan.insert name [] (t.listed columns values)).execute db ∧
      (∀ columns' values', columns'.length = values'.length →
        (columns'.zip values').Perm (columns.zip values) →
        (Plan.insert name columns' values').execute db =
          (Plan.insert name columns values).execute db) ∧
      ∀ outcome db', (Plan.insert name columns values).execute db = .ok outcome db' →
        outcome = .rowInserted ∧ ∃ t' stored, db'.table? name = some t' ∧
          t'.rows = t.rows ++ [stored] ∧
          List.Forall₂ (fun cell w => cell.1.stored cell.2 = .ok w)
            (t.columns.zip (t.listed columns values)) stored) ∧
    (columns.length ≠ values.length → (Plan.insert name columns values).execute db =
      .error (.wrongArity columns.length values.length) db) ∧
    (columns.length = values.length →
      ∀ unknown, columns.find? (· ∉ t.columnNames) = some unknown →
        (Plan.insert name columns values).execute db = .error (.columnNotFound unknown) db) := by
  have sound := h.sound
  have names : t.columnNames.Nodup := (sound.tables name t found).names
  have given : t.given columns values = t.assembleRow columns values :=
    Table.given_of_ne_nil nonempty values
  refine ⟨fun distinct known even => ?_, fun uneven => ?_, fun even unknown first => ?_⟩
  · have row : t.given columns values = .ok (t.listed columns values) := by
      rw [given, Table.assembleRow_eq_listed names distinct known even]
    refine ⟨execute_insert_congr sound found row, fun columns' values' even' perm => ?_,
      fun outcome db' => inserted_of_execute sound found row⟩
    have listing : columns'.Perm columns := by
      have firsts := perm.map Prod.fst
      rwa [List.map_fst_zip (Nat.le_of_eq even'), List.map_fst_zip (Nat.le_of_eq even)] at firsts
    have nonempty' : columns' ≠ [] := fun none => nonempty (none ▸ listing).nil_eq.symm
    have known' : columns' ⊆ t.columnNames := fun other member => known (listing.subset member)
    apply execute_insert_congr sound found
    rw [row, Table.given_of_ne_nil nonempty', Table.assembleRow_eq_listed names
      (listing.nodup_iff.mpr distinct) known' even', Table.listed_of_perm distinct even perm]
  · apply execute_insert_of_error sound found
    rw [given, Table.assembleRow_eq, if_pos uneven]
  · apply execute_insert_of_error sound found
    rw [given, Table.assembleRow_eq, if_neg (not_not.mpr even), first]

theorem key_listed_last :
    let db := (new MemoryStore.empty).afterAll
      [("CREATE TABLE t (a INT PRIMARY KEY, b FLOAT, c TEXT)", []),
        ("INSERT INTO t VALUES (1, 2.5, 'x')", [])]
    let insert (columns : List String) (values : List Value) :
        Action (Database MemoryStore) Outcome := (Plan.insert "t" columns values).execute
    let stored : Row := [.integer 2, .float (.ofInt64 3), .null]
    insert ["b", "a"] [.integer 3, .integer 2] db = insert [] [.integer 2, .integer 3, .null] db ∧
    insert ["a", "b"] [.integer 2, .integer 3] db = insert ["b", "a"] [.integer 3, .integer 2] db ∧
    (∃ t t' db', insert ["b", "a"] [.integer 3, .integer 2] db = .ok .rowInserted db' ∧
      db.table? "t" = some t ∧ db'.table? "t" = some t' ∧ t'.rows = t.rows ++ [stored]) ∧
    insert ["b", "a"] [.integer 3] db = .error (.wrongArity 2 1) db ∧
    insert ["a", "x", "y"] [.integer 2, .null, .null] db = .error (.columnNotFound "x") db := by
  intro db insert stored
  have reachable : db.Reachable :=
    (Reachable.opened (rfl : open? MemoryStore.empty = .ok (new .empty))).afterAll _
  have run : (db.table? "t").map (·.columns) = some [⟨"a", .integer, true, false, true⟩,
        ⟨"b", .float, false, false, true⟩, ⟨"c", .text, false, false, true⟩] ∧
      Action.result (insert ["b", "a"] [.integer 3, .integer 2]) db = .ok .rowInserted := by
    decide +kernel
  obtain ⟨t, found, columns⟩ := Option.map_eq_some_iff.mp run.1
  have names : t.columnNames = ["a", "b", "c"] := by rw [Table.columnNames, columns]; rfl
  have row : t.listed ["b", "a"] [.integer 3, .integer 2] = [.integer 2, .integer 3, .null] := by
    rw [Table.listed, names]
    rfl
  have two : ["b", "a"] ≠ [] := by simp
  have three : ["a", "x", "y"] ≠ [] := by simp
  obtain ⟨inserted, -, -⟩ := named_values_inserted reachable found two [.integer 3, .integer 2]
  obtain ⟨positional, permuted, appended⟩ := inserted (by decide) (by simp [names]) rfl
  obtain ⟨-, uneven, -⟩ := named_values_inserted reachable found two [.integer 3]
  obtain ⟨-, -, unknown⟩ :=
    named_values_inserted reachable found three [.integer 2, .null, .null]
  have done := Action.eq_ok_of_result run.2
  obtain ⟨-, t', stored', here, rows, forms⟩ := appended _ _ done
  refine ⟨row ▸ positional, permuted _ _ rfl (.swap ..), ⟨t, t', _, done, found, here, ?_⟩,
    uneven (by decide), unknown rfl "x" (by simp [names])⟩
  rw [row, columns] at forms
  obtain - | ⟨⟨⟩, - | ⟨⟨⟩, - | ⟨⟨⟩, ⟨⟩⟩⟩⟩ := forms
  exact rows

end Database

end Tabular
