import Tabular.Proofs.Reachability

/-! # Loading all snapshots or none

The snapshots of a directory are read in the order of the bytes of their file names. The first file
that does not hold a snapshot of the table it is named after is reported, and then the catalog stays
as it was. If there is none, every table takes the place of the one of its name or comes behind the
others, with its indexes made anew.
-/

namespace Tabular

/-- A table that is another one, except that each index is what building it anew from the rows
    gives. -/
structure Table.Reindexed (t t' : Table) : Prop where
  name : t'.name = t.name
  columns : t'.columns = t.columns
  rows : t'.rows = t.rows
  indexNames : t'.indexNames = t.indexNames
  indexed : t'.WellIndexed

theorem Table.Valid.reindexed {t : Table} (valid : t.Valid) :
    t.Reindexed (t.withRows t.rows) where
  name := rfl
  columns := rfl
  rows := rfl
  indexNames := t.indexNames_withRows t.rows
  indexed := (sound_iff.mp valid.sound).2

namespace Database

variable {σ : Type}

/-- What loading some tables makes of a database. -/
structure Loaded (db : Database σ) (tables : List Table) (db' : Database σ) : Prop where
  store : db'.store = db.store
  /-- Old names keep their places, and those that had no table follow in the order of the tables. -/
  tableNames : db'.tableNames = db.tableNames ++
    (tables.map (·.name)).filter fun name => (db.table? name).isNone
  loaded : ∀ t ∈ tables, ∃ t', db'.table? t.name = some t' ∧ t.Reindexed t'
  others : ∀ name, name ∉ tables.map (·.name) → db'.table? name = db.table? name

variable [Store σ] [LawfulStore σ]

/-- Loading again what has been loaded changes nothing. -/
theorem loaded_of_loadAll {db db' : Database σ} {tables : List Table} {count : Nat}
    (read : Store.loadAll db.store = .ok tables) (different : (tables.map (·.name)).Nodup)
    (h : load db = .ok count db') :
    count = tables.length ∧ db.Loaded tables db' ∧ load db' = .ok count db' := by
  have find (t : Table) (member : t ∈ tables) :=
    Catalog.get?_foldl_put different (fun t => t.withRows t.rows) db.catalog member
  rw [load_apply, read] at h
  cases h
  refine ⟨rfl, ⟨rfl, ?_, fun t member => ?_, fun name other => ?_⟩, ?_⟩
  · exact Catalog.names_foldl_put different _ db.catalog
  · have valid := Table.check_eq_ok_iff.mp (LawfulStore.check_of_loadAll read t member)
    exact ⟨_, find t member, valid.reindexed⟩
  · exact Catalog.get?_foldl_put_of_not_mem _ db.catalog other
  · simp only [load_apply, read, Catalog.foldl_put_of_get? find]

open Directory in
/-- Loading goes through the snapshots of a directory in the order of the bytes of their file names.
    It fails if one of them is flawed, reporting the path of the first such, and changes nothing then.
    Otherwise the tables of all snapshots are loaded, and loading again changes nothing. -/
theorem load_all_or_nothing (db : Database Directory) :
    ∃ files : List (List UInt8 × List UInt8),
      files.Pairwise (fun a b => a.1 ++ extension < b.1 ++ extension) ∧
      (∀ stem bytes, (stem, bytes) ∈ files ↔
        stem ≠ [] ∧ db.store.file? (stem ++ extension) = some bytes) ∧
      ((∃ e db', load db = .error e db') ↔ ∃ file ∈ files, ∃ cause, Flaw file cause) ∧
      (∀ e db', load db = .error e db' → db' = db ∧
        ∃ before file after cause, files = before ++ file :: after ∧
          (∀ other ∈ before, ∃ t, Intact other t) ∧ Flaw file cause ∧
          e = .cannotLoad (Text.lossy (Path.join db.store.path (file.1 ++ extension))) cause) ∧
      ∀ count db', load db = .ok count db' → count = files.length ∧
        ∃ tables, List.Forall₂ Intact files tables ∧ db.Loaded tables db' ∧
          load db' = .ok count db' := by
  refine ⟨db.store.snapshots, db.store.sorted_snapshots, fun _ _ => mem_snapshots_iff, ?_⟩
  have run := load_apply db
  cases read : Store.loadAll db.store with
  | error e =>
      simp only [read] at run
      obtain ⟨before, file, after, cause, listed, fine, flaw, named⟩ := loadAll_eq_error_iff.mp read
      have member : file ∈ db.store.snapshots := by simp [listed]
      refine ⟨iff_of_true ⟨e, db, run⟩ ⟨file, member, cause, flaw⟩, ?_, ?_⟩
      · intro e' db' failed
        cases run.symm.trans failed
        exact ⟨rfl, before, file, after, cause, listed, fine, flaw, named⟩
      · intro count db' succeeded
        cases run.symm.trans succeeded
  | ok tables =>
      simp only [read] at run
      have intact := loadAll_eq_ok_iff.mp read
      refine ⟨iff_of_false ?_ ?_, ?_, ?_⟩
      · rintro ⟨e, db', failed⟩
        cases run.symm.trans failed
      · rintro ⟨file, member, cause, flaw⟩
        obtain ⟨i, below, rfl⟩ := List.mem_iff_getElem.mp member
        exact flaw.not_intact _ (intact.get below (intact.length_eq ▸ below))
      · intro e db' failed
        cases run.symm.trans failed
      · intro count db' succeeded
        obtain ⟨counted, loaded, again⟩ :=
          loaded_of_loadAll read (nodup_names_of_intact intact) succeeded
        exact ⟨counted.trans intact.length_eq.symm, tables, intact, loaded, again⟩

/-- A file whose name is no text is not passed over, and its name is shown as far as it is one. -/
example :
    let d : Directory := ⟨Text.bytes "data/", .ofList [([0xFF, 0x2E, 0x64, 0x62], .file []),
      (Text.bytes "b.db", .directory), (Text.bytes ".db", .file []), (Text.bytes "c", .file [])],
      fun _ => .byKey⟩
    Action.result load (new d) =
      .error (.cannotLoad "data/\uFFFD.db" (.snapshot .endOfBytes)) := by
  decide +kernel

end Database

end Tabular
