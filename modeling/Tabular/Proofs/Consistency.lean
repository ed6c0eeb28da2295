import Tabular.Proofs.Reachability

/-! # Databases are consistent

Whatever a store holds when it is opened, and whatever texts are carried out and fail afterwards, no
name is registered twice, every table stands under its own name and obeys the rules for stored
tables, and every index holds what building it anew from the rows would give.
-/

namespace Tabular.Database

variable {σ : Type} [Store σ] [LawfulStore σ]

theorem consistent_of_reachable {db : Database σ} (h : db.Reachable) :
    db.tableNames.Nodup ∧
    (∀ name, name ∈ db.tableNames ↔ ∃ t, db.table? name = some t) ∧
    ∀ name t, db.table? name = some t →
      t.name = name ∧
      t.check = .ok () ∧
      ∀ filed index, t.indexes.get? filed = some index →
        index.column = filed ∧
        ∃ position, t.columnPosition filed = .ok position ∧
          Index.build index.name filed position t.rows = .ok index ∧
          index.Exact position t.rows := by
  have sound := h.sound
  refine ⟨sound.names, sound.listed, fun name t found => ?_⟩
  have table := sound.tables name t found
  refine ⟨sound.filed name t found, Table.check_eq_ok_iff.mpr table.toValid, ?_⟩
  intro filed index filing
  have member : (filed, index) ∈ t.indexes.toList := SortedMap.mem_toList_iff.mpr filing
  obtain ⟨covers, known⟩ := table.filed _ member
  have wide := table.toValid.wide known
  have made : t.refiled t.rows index = index := Table.withRows_current_iff.mp table.current _ member
  rw [Table.refiled, covers] at made
  refine ⟨covers, t.position filed, Table.columnPosition_of_mem known, ?_, ?_⟩
  · rw [Index.build_eq_ok wide, made]
  · rw [← made]
    exact Index.exact_of wide

theorem consistent_after_failed_insert :
    let db := (new MemoryStore.empty).afterAll [("CREATE TABLE t (a FLOAT UNIQUE)", []),
      ("CREATE INDEX i ON t(a)", []), ("INSERT INTO t VALUES (1)", []),
      ("INSERT INTO t VALUES (?)", [.integer 1])]
    (db.table? "t").map (·.rows) = some [[.float (.ofInt64 1)]] ∧
      ∀ t, db.table? "t" = some t → t.name = "t" ∧ t.check = .ok () ∧
        ∀ index, t.indexes.get? "a" = some index → index.column = "a" := by
  intro db
  have opened : open? MemoryStore.empty = .ok (new .empty) := rfl
  have reachable : db.Reachable := (Reachable.opened opened).afterAll _
  refine ⟨by decide +kernel, fun t found => ?_⟩
  obtain ⟨-, -, tables⟩ := consistent_of_reachable reachable
  obtain ⟨named, checked, indexes⟩ := tables "t" t found
  exact ⟨named, checked, fun index filing => (indexes "a" index filing).1⟩

end Tabular.Database
